-- The executor's binary cache: `GetBinary` with its download, SHA-256 check, rename
-- and LRU eviction, changing files only at its digest's paths or an evicted entry's.
import Mathlib.Data.List.Sort
import Executr.Executor.Path
import Executr.Go

namespace executr.executor

/-! ## Files and entries -/

/-- `hex.EncodeToString` of a SHA-256: 64 lowercase hex digits. -/
def isHexDigest (d : String) : Bool :=
  d.length == 64 && d.data.all fun c => c.isDigit || ('a' ≤ c && c ≤ 'f')

/-- What the cache sees of a file's bytes: their SHA-256 and their size. -/
structure Blob where
  sha256 : String
  size : Nat
  sha256_hex : isHexDigest sha256 = true
  deriving DecidableEq

/-- The files of the cache directory, by path. -/
def Files := String → Option Blob

def Files.write (fs : Files) (path : String) (b : Blob) : Files :=
  fun q => if q = path then some b else fs q

/-- `os.Remove`, whose error every caller ignores. -/
def Files.remove (fs : Files) (path : String) : Files :=
  fun q => if q = path then none else fs q

structure CacheEntry where
  sha256 : String
  path : String
  size : Int
  lastAccess : Int
  deriving DecidableEq, Repr

/-- `BinaryCache`; the map `entries` is a list keyed by `sha256`. -/
structure BinaryCache where
  cacheDir : String
  maxSizeMB : Int
  entries : List CacheEntry

namespace BinaryCache

/-- `filepath.Join(c.cacheDir, name)`. -/
def pathOf (c : BinaryCache) (name : String) : String := filepathJoin c.cacheDir name

/-- `c.entries[sha]`. -/
def lookup (c : BinaryCache) (sha : String) : Option CacheEntry := c.entries.find? (·.sha256 == sha)

/-- `delete(c.entries, sha)`. -/
def delete (c : BinaryCache) (sha : String) : BinaryCache :=
  { c with entries := c.entries.filter (·.sha256 != sha) }

/-- `c.entries[e.sha256] = e`. -/
def insert (c : BinaryCache) (e : CacheEntry) : BinaryCache :=
  { c with entries := e :: (c.delete e.sha256).entries }

/-- `entry.lastAccess = time.Now()` on the entry of `sha`. -/
def touch (c : BinaryCache) (sha : String) (now : Int) : BinaryCache :=
  { c with entries := c.entries.map fun e => if e.sha256 = sha then { e with lastAccess := now } else e }

end BinaryCache

/-- `verifySHA256`: the file exists and hashes to the expected digest. -/
def verifySHA256 (fs : Files) (filePath expectedSHA256 : String) : Bool :=
  match fs filePath with
  | some b => b.sha256 == expectedSHA256
  | none => false

/-! ## `GetBinary` -/

/-- The sizes of the entries, added up. -/
def sizeSum : List CacheEntry → Int
  | [] => 0
  | entry :: rest => entry.size + sizeSum rest

/-- The loop `totalSize += entry.size`, in `int64`. -/
def totalSize (es : List CacheEntry) : Int := toInt64 (sizeSum es)

/-- The loop of `evictIfNeeded`: stop once the total fits, else drop the entry. -/
def evictLoop (maxBytes : Int) :
    List CacheEntry → Int → BinaryCache → Files → BinaryCache × Files
  | [], _, c, fs => (c, fs)
  | entry :: rest, totalSize, c, fs =>
    if totalSize ≤ maxBytes then (c, fs)
    else evictLoop maxBytes rest (toInt64 (totalSize - entry.size)) (c.delete entry.sha256)
      (fs.remove entry.path)

/-- `evictIfNeeded`; `sortBy` is the order `sort.Slice` leaves, oldest first. -/
def evictIfNeeded (sortBy : List CacheEntry → List CacheEntry) (c : BinaryCache) (fs : Files) :
    BinaryCache × Files :=
  let maxBytes := toInt64 (c.maxSizeMB * 1024 * 1024)
  if totalSize c.entries ≤ maxBytes then (c, fs)
  else evictLoop maxBytes (sortBy c.entries) (totalSize c.entries) c fs

/-- An OS call of the download path that can fail. -/
inductive OsCall
  | chmod
  | rename
  | stat
  deriving DecidableEq, Repr

/-- The clock, the bytes the URL served (none: the download failed), a failing OS call. -/
structure Env where
  now : Int
  fetched : Option Blob
  fault : Option OsCall

/-- The second half of `GetBinary`, once the cache has no valid entry. -/
def downloadAndCache (sortBy : List CacheEntry → List CacheEntry) (env : Env) (c : BinaryCache)
    (fs : Files) (expectedSHA256 : String) : Except String String × BinaryCache × Files :=
  let cachePath := c.pathOf expectedSHA256
  let tempPath := cachePath ++ ".tmp"
  match env.fetched with
  | none => (.error "failed to download binary", c, fs.remove tempPath)
  | some b =>
    let fs := fs.write tempPath b
    if !verifySHA256 fs tempPath expectedSHA256 then
      (.error "SHA256 verification failed", c, fs.remove tempPath)
    else if env.fault = some .chmod then
      (.error "failed to make binary executable", c, fs.remove tempPath)
    else if env.fault = some .rename then
      (.error "failed to move binary to cache", c, fs.remove tempPath)
    else
      let fs := (fs.remove tempPath).write cachePath b
      if env.fault = some .stat then (.error "failed to stat cached binary", c, fs)
      else
        let r := evictIfNeeded sortBy (c.insert ⟨expectedSHA256, cachePath, b.size, env.now⟩) fs
        (.ok cachePath, r.1, r.2)

/-- `GetBinary`, which holds the cache's mutex from start to end. -/
def getBinary (sortBy : List CacheEntry → List CacheEntry) (env : Env) (c : BinaryCache)
    (fs : Files) (_binaryURL expectedSHA256 : String) : Except String String × BinaryCache × Files :=
  match c.lookup expectedSHA256 with
  | some entry =>
    if verifySHA256 fs entry.path expectedSHA256 then
      (.ok entry.path, c.touch expectedSHA256 env.now, fs)
    else downloadAndCache sortBy env (c.delete expectedSHA256) (fs.remove entry.path) expectedSHA256
  | none => downloadAndCache sortBy env c fs expectedSHA256

/-- `a` was not accessed after `b`: the order `sort.Slice` leaves. -/
def accessOrder (a b : CacheEntry) : Prop := a.lastAccess ≤ b.lastAccess

instance : DecidableRel accessOrder := fun a b => inferInstanceAs (Decidable (a.lastAccess ≤ b.lastAccess))

instance : IsTotal CacheEntry accessOrder := ⟨fun a b => Int.le_total a.lastAccess b.lastAccess⟩

instance : IsTrans CacheEntry accessOrder := ⟨fun _ _ _ => Int.le_trans⟩

/-- `sortBy` sorts as `sort.Slice` by `lastAccess.Before`. -/
def SortsByAccess (sortBy : List CacheEntry → List CacheEntry) : Prop :=
  ∀ es, (sortBy es).Perm es ∧ (sortBy es).Sorted accessOrder

/-- Insertion sort, which is what `sort.Slice` runs on up to 12 entries. -/
def sortByAccess (es : List CacheEntry) : List CacheEntry := es.insertionSort accessOrder

theorem sortByAccess_sorts : SortsByAccess sortByAccess :=
  fun es => ⟨List.perm_insertionSort _ es, List.sorted_insertionSort _ es⟩

/-- Every entry is keyed by a plain file name and lives at `cacheDir/key`. -/
def BinaryCache.PathsOk (c : BinaryCache) : Prop :=
  ∀ e ∈ c.entries, isPathElem e.sha256 = true ∧ e.path = c.pathOf e.sha256

/-! ## Paths, keys and files -/

@[simp] theorem Files.write_apply (fs : Files) (p : String) (b : Blob) (q : String) :
    fs.write p b q = if q = p then some b else fs q := rfl

@[simp] theorem Files.remove_apply (fs : Files) (p q : String) :
    fs.remove p q = if q = p then none else fs q := rfl

/-- A SHA-256 in hex is a plain file name. -/
theorem isPathElem_of_hex {d : String} (hd : isHexDigest d = true) : isPathElem d = true := by
  simp only [isHexDigest, Bool.and_eq_true, beq_iff_eq, List.all_eq_true] at hd
  refine isPathElem_iff.mpr ⟨?_, ?_, ?_, fun h => absurd (hd.2 '/' h) (by decide)⟩ <;>
  · intro e
    rw [e] at hd
    exact absurd hd.1 (by decide)

namespace BinaryCache

variable {c : BinaryCache}

theorem pathOf_inj {a b : String} (ha : isPathElem a = true) (hb : isPathElem b = true) :
    c.pathOf a = c.pathOf b ↔ a = b :=
  filepathJoin_inj ha hb

theorem pathOf_ne_temp {d d' : String} (hd : isHexDigest d = true) :
    c.pathOf d ≠ c.pathOf d' ++ ".tmp" := by
  intro h
  have hj : c.pathOf d = dirPrefix c.cacheDir ++ d := filepathJoin_elem _ (isPathElem_of_hex hd)
  rw [hj] at h
  have h1 : (dirPrefix c.cacheDir).data ++ d.data = (c.pathOf d').data ++ ".tmp".data :=
    congrArg String.data h
  simp only [isHexDigest, Bool.and_eq_true, beq_iff_eq, List.all_eq_true] at hd
  have hlen : ".tmp".data.length ≤ d.data.length := by
    have : d.data.length = 64 := hd.1
    rw [this]
    decide
  have ht : ".tmp".data <:+ (dirPrefix c.cacheDir).data ++ d.data := h1 ▸ List.suffix_append _ _
  have hs : ".tmp".data <:+ d.data := List.suffix_of_suffix_length_le ht (List.suffix_append _ _) hlen
  exact absurd (hd.2 '.' (hs.subset (by decide))) (by decide)

theorem lookup_isSome {sha : String} : (c.lookup sha).isSome ↔ ∃ e ∈ c.entries, e.sha256 = sha := by
  simp [lookup, List.find?_isSome]

theorem lookup_eq_some {sha : String} {e : CacheEntry} (h : c.lookup sha = some e) :
    e ∈ c.entries ∧ e.sha256 = sha :=
  ⟨List.mem_of_find?_eq_some h, by simpa using List.find?_some h⟩

@[simp] theorem mem_delete {e : CacheEntry} {sha : String} :
    e ∈ (c.delete sha).entries ↔ e ∈ c.entries ∧ e.sha256 ≠ sha := by
  simp [delete]

@[simp] theorem mem_insert {e n : CacheEntry} :
    e ∈ (c.insert n).entries ↔ e = n ∨ (e ∈ c.entries ∧ e.sha256 ≠ n.sha256) := by
  simp [insert]

@[simp] theorem delete_pathOf (sha : String) : (c.delete sha).pathOf = c.pathOf := rfl

@[simp] theorem insert_pathOf (n : CacheEntry) : (c.insert n).pathOf = c.pathOf := rfl

@[simp] theorem touch_pathOf (sha : String) (now : Int) : (c.touch sha now).pathOf = c.pathOf := rfl

theorem mem_touch {sha : String} {now : Int} {e : CacheEntry} (he : e ∈ (c.touch sha now).entries) :
    ∃ e₀ ∈ c.entries, e.sha256 = e₀.sha256 ∧ e.path = e₀.path := by
  obtain ⟨e₀, h₀, rfl⟩ := List.mem_map.mp he
  exact ⟨e₀, h₀, by split <;> rfl, by split <;> rfl⟩

theorem touch_keys {sha k : String} {now : Int} (h : ∃ e ∈ c.entries, e.sha256 = k) :
    ∃ e ∈ (c.touch sha now).entries, e.sha256 = k := by
  obtain ⟨e, he, rfl⟩ := h
  exact ⟨_, List.mem_map_of_mem _ he, by split <;> rfl⟩

theorem PathsOk.delete (h : c.PathsOk) (sha : String) : (c.delete sha).PathsOk :=
  fun e he => h e (mem_delete.mp he).1

theorem PathsOk.insert (h : c.PathsOk) {n : CacheEntry} (hk : isPathElem n.sha256 = true)
    (hn : n.path = c.pathOf n.sha256) : (c.insert n).PathsOk := by
  intro e he
  rcases mem_insert.mp he with rfl | ⟨he, -⟩
  · exact ⟨hk, hn⟩
  · exact h e he

theorem PathsOk.touch (h : c.PathsOk) (sha : String) (now : Int) : (c.touch sha now).PathsOk := by
  intro e he
  obtain ⟨e₀, h₀, hs, hp⟩ := mem_touch he
  rw [hp, hs]
  exact h e₀ h₀

end BinaryCache

open BinaryCache

/-! ## Eviction -/

theorem evictLoop_spec {maxBytes : Int} : ∀ {order : List CacheEntry} {total : Int}
    {c c' : BinaryCache} {fs fs' : Files}, evictLoop maxBytes order total c fs = (c', fs') →
    c'.cacheDir = c.cacheDir ∧ (∀ e ∈ c'.entries, e ∈ c.entries) ∧
      ∀ q, fs' q = fs q ∨ ∃ e ∈ order, q = e.path ∧ ∀ e' ∈ c'.entries, e'.sha256 ≠ e.sha256
  | [], _, _, _, _, _, h => by cases h; exact ⟨rfl, fun _ h => h, fun _ => .inl rfl⟩
  | entry :: rest, total, c, c', fs, fs', h => by
    simp only [evictLoop] at h
    split at h
    · cases h; exact ⟨rfl, fun _ h => h, fun _ => .inl rfl⟩
    · obtain ⟨hd, hsub, hfs⟩ := evictLoop_spec h
      refine ⟨hd, fun e he => (mem_delete.mp (hsub e he)).1, fun q => ?_⟩
      rcases hfs q with hq | ⟨e, he, rfl, hgone⟩
      · by_cases hqe : q = entry.path
        · exact .inr ⟨entry, List.mem_cons_self _ _, hqe,
            fun e' he' => (mem_delete.mp (hsub e' he')).2⟩
        · exact .inl (by simp [hq, hqe])
      · exact .inr ⟨e, List.mem_cons_of_mem _ he, rfl, hgone⟩

theorem evictIfNeeded_spec {sortBy : List CacheEntry → List CacheEntry} {c c' : BinaryCache}
    {fs fs' : Files} (hmem : ∀ e ∈ sortBy c.entries, e ∈ c.entries)
    (h : evictIfNeeded sortBy c fs = (c', fs')) :
    c'.cacheDir = c.cacheDir ∧ (∀ e ∈ c'.entries, e ∈ c.entries) ∧
      ∀ q, fs' q = fs q ∨ ∃ e ∈ c.entries, q = e.path ∧ ∀ e' ∈ c'.entries, e'.sha256 ≠ e.sha256 := by
  simp only [evictIfNeeded] at h
  split at h
  · cases h; exact ⟨rfl, fun _ h => h, fun _ => .inl rfl⟩
  · obtain ⟨hd, hsub, hfs⟩ := evictLoop_spec h
    exact ⟨hd, hsub, fun q => (hfs q).imp_right fun ⟨e, he, hq, hg⟩ => ⟨e, hmem e he, hq, hg⟩⟩

theorem evictIfNeeded_frame {sortBy : List CacheEntry → List CacheEntry} {c c' : BinaryCache}
    {fs fs' : Files} (hmem : ∀ e ∈ sortBy c.entries, e ∈ c.entries) (hp : c.PathsOk)
    (h : evictIfNeeded sortBy c fs = (c', fs')) {d₀ : String} (hk : ∃ e ∈ c'.entries, e.sha256 = d₀) :
    fs' (c.pathOf d₀) = fs (c.pathOf d₀) := by
  obtain ⟨-, hsub, hfs⟩ := evictIfNeeded_spec hmem h
  rcases hfs (c.pathOf d₀) with hq | ⟨e, he, hq, hg⟩
  · exact hq
  · obtain ⟨e', he', rfl⟩ := hk
    obtain ⟨hke, hpe⟩ := hp e he
    rw [hpe, pathOf_inj (hp e' (hsub e' he')).1 hke] at hq
    exact absurd hq (hg e' he')

theorem totalSize_cons_sub (x : CacheEntry) (rest : List CacheEntry) :
    toInt64 (totalSize (x :: rest) - x.size) = totalSize rest := by
  rw [totalSize, toInt64_sub_toInt64, sizeSum, show x.size + sizeSum rest - x.size = sizeSum rest by omega]
  rfl

theorem evictLoop_keeps {maxBytes : Int} {n : CacheEntry} (hn : totalSize [n] ≤ maxBytes) :
    ∀ (xs : List CacheEntry) (c : BinaryCache) (fs : Files), (∀ x ∈ xs, x.sha256 ≠ n.sha256) →
      n ∈ c.entries → n ∈ (evictLoop maxBytes (xs ++ [n]) (totalSize (xs ++ [n])) c fs).1.entries
  | [], c, fs, _, hc => by simp [evictLoop, hn, hc]
  | x :: xs, c, fs, hx, hc => by
    simp only [List.cons_append, evictLoop]
    split
    · exact hc
    · rw [totalSize_cons_sub]
      exact evictLoop_keeps hn xs _ _ (fun y hy => hx y (List.mem_cons_of_mem _ hy))
        (mem_delete.mpr ⟨hc, fun h => hx x (List.mem_cons_self _ _) h.symm⟩)

theorem totalSize_perm {l₁ l₂ : List CacheEntry} (h : l₁.Perm l₂) : totalSize l₁ = totalSize l₂ := by
  have : sizeSum l₁ = sizeSum l₂ := by
    induction h with
    | nil => rfl
    | cons x _ ih => simp only [sizeSum, ih]
    | swap x y l => simp only [sizeSum]; omega
    | trans _ _ ih₁ ih₂ => exact ih₁.trans ih₂
  rw [totalSize, totalSize, this]

theorem totalSize_single {n : CacheEntry} {maxBytes : Int} (h0 : 0 ≤ n.size)
    (h : n.size ≤ toInt64 maxBytes) : totalSize [n] ≤ toInt64 maxBytes := by
  have := toInt64_lt maxBytes
  rw [totalSize, sizeSum, sizeSum, Int.add_zero, toInt64_of_range (by omega) (by omega)]
  exact h

theorem sorted_newest_last {n : CacheEntry} {others order : List CacheEntry}
    (hperm : order.Perm (n :: others)) (hsort : order.Sorted accessOrder)
    (hold : ∀ o ∈ others, o.lastAccess < n.lastAccess) :
    ∃ xs, order = xs ++ [n] ∧ xs.Perm others := by
  obtain ⟨l₁, l₂, rfl⟩ := List.append_of_mem (hperm.symm.subset (List.mem_cons_self n others))
  have hp : (l₁ ++ l₂).Perm others := (List.perm_middle.symm.trans hperm).cons_inv
  have hl₂ : l₂ = [] := List.eq_nil_iff_forall_not_mem.mpr fun y hy => by
    have hny : accessOrder n y := (List.pairwise_cons.mp (List.pairwise_append.mp hsort).2.1).1 y hy
    have := hold y (hp.subset (List.mem_append_right _ hy))
    exact absurd hny (by unfold accessOrder; omega)
  subst hl₂
  exact ⟨l₁, rfl, by simpa using hp⟩

/-- A new entry that fits the budget alone and is the newest survives the eviction. -/
theorem evictIfNeeded_keeps {sortBy : List CacheEntry → List CacheEntry} (hs : SortsByAccess sortBy)
    {c : BinaryCache} {fs : Files} {n : CacheEntry} (h0 : 0 ≤ n.size)
    (hfit : n.size ≤ toInt64 (c.maxSizeMB * 1024 * 1024))
    (hold : ∀ e ∈ c.entries, e.sha256 ≠ n.sha256 → e.lastAccess < n.lastAccess) :
    n ∈ (evictIfNeeded sortBy (c.insert n) fs).1.entries := by
  simp only [evictIfNeeded]
  split
  · exact List.mem_cons_self _ _
  · obtain ⟨hperm, hsorted⟩ := hs (c.insert n).entries
    obtain ⟨xs, hxs, hp⟩ := sorted_newest_last hperm hsorted
      fun o ho => hold o (mem_delete.mp ho).1 (mem_delete.mp ho).2
    have htot : totalSize (c.insert n).entries = totalSize (xs ++ [n]) :=
      totalSize_perm ((hp.symm.cons n).trans (List.perm_append_singleton n xs).symm)
    rw [hxs, htot]
    exact evictLoop_keeps (totalSize_single h0 hfit) xs _ fs (fun x hx => (mem_delete.mp (hp.subset hx)).2)
      (List.mem_cons_self _ _)

/-! ## One call of `GetBinary` -/

theorem verifySHA256_iff {fs : Files} {path d : String} :
    verifySHA256 fs path d = true ↔ ∃ b, fs path = some b ∧ b.sha256 = d := by
  unfold verifySHA256
  split <;> simp [*]

section call

variable {sortBy : List CacheEntry → List CacheEntry} {env : Env} {c c' : BinaryCache}
  {fs fs' : Files} {url d : String} {r : Except String String}

/-- The download path fails with the cache as it was and at most the temporary file
and the cache path changed, or puts the bytes in place, inserts and evicts. -/
theorem downloadAndCache_cases (h : downloadAndCache sortBy env c fs d = (r, c', fs')) :
    (c' = c ∧ (∀ p, r ≠ .ok p) ∧
      ((∀ q, fs' q = (fs.remove (c.pathOf d ++ ".tmp")) q) ∨
        ∃ b, env.fetched = some b ∧ b.sha256 = d ∧
          fs' = ((fs.write (c.pathOf d ++ ".tmp") b).remove (c.pathOf d ++ ".tmp")).write (c.pathOf d) b)) ∨
    ∃ b, env.fetched = some b ∧ b.sha256 = d ∧ r = .ok (c.pathOf d) ∧
      evictIfNeeded sortBy (c.insert ⟨d, c.pathOf d, b.size, env.now⟩)
        (((fs.write (c.pathOf d ++ ".tmp") b).remove (c.pathOf d ++ ".tmp")).write (c.pathOf d) b) =
        (c', fs') := by
  simp only [downloadAndCache] at h
  split at h
  · cases h
    exact .inl ⟨rfl, fun _ => nofun, .inl fun _ => rfl⟩
  rename_i b hb
  rw [show verifySHA256 (fs.write (c.pathOf d ++ ".tmp") b) (c.pathOf d ++ ".tmp") d = (b.sha256 == d) by
    simp [verifySHA256]] at h
  split_ifs at h with hbd <;> cases h
  all_goals first
    | exact .inr ⟨b, hb, by simpa using hbd, rfl, rfl⟩
    | exact .inl ⟨rfl, fun _ => nofun, .inr ⟨b, hb, by simpa using hbd, rfl⟩⟩
    | exact .inl ⟨rfl, fun _ => nofun, .inl fun q => by
        simp only [Files.write_apply, Files.remove_apply]; split_ifs <;> rfl⟩

theorem BinaryCache.PathsOk.of_subset {c₀ : BinaryCache} (hp : c₀.PathsOk) (hd : c.cacheDir = c₀.cacheDir)
    (hsub : ∀ e ∈ c.entries, e ∈ c₀.entries) : c.PathsOk := fun e he => by
  obtain ⟨hk, hpe⟩ := hp e (hsub e he)
  refine ⟨hk, ?_⟩
  rw [hpe]
  simp only [pathOf, hd]

theorem downloadAndCache_ok {p : String} (h : downloadAndCache sortBy env c fs d = (r, c', fs'))
    (hr : r = .ok p) : p = c.pathOf d ∧ isHexDigest d = true := by
  rcases downloadAndCache_cases h with ⟨-, hne, -⟩ | ⟨b, -, hbd, rfl, -⟩
  · exact absurd hr (hne p)
  · exact ⟨(Except.ok.inj hr).symm, hbd ▸ b.sha256_hex⟩

theorem downloadAndCache_keeps (hs : SortsByAccess sortBy) {p : String}
    (h : downloadAndCache sortBy env c fs d = (r, c', fs')) (hr : r = .ok p)
    (hfit : ∀ b, env.fetched = some b → (b.size : Int) ≤ toInt64 (c.maxSizeMB * 1024 * 1024))
    (hold : ∀ e ∈ c.entries, e.sha256 ≠ d → e.lastAccess < env.now) :
    ∃ e ∈ c'.entries, e.sha256 = d := by
  rcases downloadAndCache_cases h with ⟨-, hne, -⟩ | ⟨b, hb, -, -, he⟩
  · exact absurd hr (hne p)
  · have hk := @evictIfNeeded_keeps sortBy hs c (((fs.write (c.pathOf d ++ ".tmp") b).remove
      (c.pathOf d ++ ".tmp")).write (c.pathOf d) b) ⟨d, c.pathOf d, b.size, env.now⟩ (Int.ofNat_zero_le _)
      (hfit b hb) hold
    rw [he] at hk
    exact ⟨_, hk, rfl⟩

/-- `GetBinary` returns a verified hit and touches it, or runs the download path on
the cache without the digest's key. -/
theorem getBinary_cases (hp : c.PathsOk) (h : getBinary sortBy env c fs url d = (r, c', fs')) :
    (∃ e, c.lookup d = some e ∧ verifySHA256 fs (c.pathOf d) d = true ∧ r = .ok (c.pathOf d) ∧
      c' = c.touch d env.now ∧ fs' = fs) ∨
    ∃ es fs₀, (∀ e ∈ es, e ∈ c.entries ∧ e.sha256 ≠ d) ∧
      (fs₀ = fs ∨ isPathElem d = true ∧ ∀ q, q ≠ c.pathOf d → fs₀ q = fs q) ∧
      downloadAndCache sortBy env { c with entries := es } fs₀ d = (r, c', fs') := by
  simp only [getBinary] at h
  split at h
  · rename_i e he
    obtain ⟨hmem, hkey⟩ := lookup_eq_some he
    obtain ⟨hel, hpath⟩ : isPathElem d = true ∧ e.path = c.pathOf d := hkey ▸ hp e hmem
    split at h
    · cases h
      exact .inl ⟨e, he, hpath ▸ ‹_›, by rw [hpath], rfl, rfl⟩
    · exact .inr ⟨_, _, fun e' he' => mem_delete.mp he', .inr ⟨hel, fun q hq => by simp [hpath, hq]⟩, h⟩
  · rename_i hno
    refine .inr ⟨c.entries, fs, fun e he => ⟨he, fun hk => ?_⟩, .inl rfl, h⟩
    simpa [hno] using lookup_isSome.mpr ⟨e, he, hk⟩

theorem getBinary_hit {e : CacheEntry} (hl : c.lookup d = some e) (hv : verifySHA256 fs e.path d = true)
    (h : getBinary sortBy env c fs url d = (r, c', fs')) :
    r = .ok e.path ∧ c' = c.touch d env.now ∧ fs' = fs := by
  simp only [getBinary, hl, if_pos hv] at h
  cases h
  exact ⟨rfl, rfl, rfl⟩

/-- A successful call returns `cacheDir/d`, and `d` is a SHA-256. -/
theorem getBinary_ok (hp : c.PathsOk) {p : String} (h : getBinary sortBy env c fs url d = (r, c', fs'))
    (hr : r = .ok p) : p = c.pathOf d ∧ isHexDigest d = true := by
  rcases getBinary_cases hp h with ⟨e, -, hv, rfl, -, -⟩ | ⟨es, fs₀, -, -, hd⟩
  · obtain ⟨b, -, rfl⟩ := verifySHA256_iff.mp hv
    exact ⟨(Except.ok.inj hr).symm, b.sha256_hex⟩
  · exact (downloadAndCache_ok hd hr :)

variable (hs : SortsByAccess sortBy) (hp : c.PathsOk)
include hs hp

theorem downloadAndCache_pathsOk (h : downloadAndCache sortBy env c fs d = (r, c', fs')) :
    c'.cacheDir = c.cacheDir ∧ c'.PathsOk := by
  rcases downloadAndCache_cases h with ⟨rfl, -, -⟩ | ⟨b, -, hbd, -, he⟩
  · exact ⟨rfl, hp⟩
  · obtain ⟨hd, hsub, -⟩ := evictIfNeeded_spec (fun e he => (hs _).1.subset he) he
    have hpn : (c.insert ⟨d, c.pathOf d, b.size, env.now⟩).PathsOk :=
      hp.insert (isPathElem_of_hex (hbd ▸ b.sha256_hex)) rfl
    exact ⟨hd, hpn.of_subset hd hsub⟩

theorem downloadAndCache_self (hno : ∀ e ∈ c.entries, e.sha256 ≠ d)
    (h : downloadAndCache sortBy env c fs d = (r, c', fs')) (hk : ∃ e ∈ c'.entries, e.sha256 = d) :
    ∃ b, fs' (c.pathOf d) = some b ∧ b.sha256 = d := by
  rcases downloadAndCache_cases h with ⟨rfl, -, -⟩ | ⟨b, -, hbd, -, he⟩
  · obtain ⟨e, he, hed⟩ := hk
    exact absurd hed (hno e he)
  · have hpn : (c.insert ⟨d, c.pathOf d, b.size, env.now⟩).PathsOk :=
      hp.insert (isPathElem_of_hex (hbd ▸ b.sha256_hex)) rfl
    have hframe := evictIfNeeded_frame (fun e he => (hs _).1.subset he) hpn he hk
    simp only [insert_pathOf] at hframe
    exact ⟨b, by simp [hframe], hbd⟩

theorem downloadAndCache_frame (h : downloadAndCache sortBy env c fs d = (r, c', fs')) {d₀ : String}
    (hne : d₀ ≠ d) (hx : isHexDigest d₀ = true) (hk : ∃ e ∈ c'.entries, e.sha256 = d₀) :
    (∃ e ∈ c.entries, e.sha256 = d₀) ∧ fs' (c.pathOf d₀) = fs (c.pathOf d₀) := by
  have htmp : c.pathOf d₀ ≠ c.pathOf d ++ ".tmp" := pathOf_ne_temp hx
  have hpath : isPathElem d = true → c.pathOf d₀ ≠ c.pathOf d :=
    fun hd h => hne ((pathOf_inj (isPathElem_of_hex hx) hd).mp h)
  rcases downloadAndCache_cases h with ⟨rfl, -, hfs | ⟨b, -, hbd, hfs⟩⟩ | ⟨b, -, hbd, -, he⟩
  · exact ⟨hk, by rw [hfs]; simp [htmp]⟩
  · exact ⟨hk, by rw [hfs]; simp [hpath (isPathElem_of_hex (hbd ▸ b.sha256_hex)), htmp]⟩
  · have hd : isPathElem d = true := isPathElem_of_hex (hbd ▸ b.sha256_hex)
    replace hpath := hpath hd
    obtain ⟨-, hsub, -⟩ := evictIfNeeded_spec (fun e he => (hs _).1.subset he) he
    have hpn : (c.insert ⟨d, c.pathOf d, b.size, env.now⟩).PathsOk := hp.insert hd rfl
    have hframe := evictIfNeeded_frame (fun e he => (hs _).1.subset he) hpn he hk
    simp only [insert_pathOf] at hframe
    obtain ⟨e, he', rfl⟩ := hk
    refine ⟨?_, by simp [hframe, hpath, htmp]⟩
    rcases mem_insert.mp (hsub e he') with rfl | ⟨hc, -⟩
    · exact absurd rfl hne
    · exact ⟨e, hc, rfl⟩

theorem getBinary_pathsOk (h : getBinary sortBy env c fs url d = (r, c', fs')) :
    c'.cacheDir = c.cacheDir ∧ c'.PathsOk := by
  rcases getBinary_cases hp h with ⟨e, -, -, -, rfl, -⟩ | ⟨es, fs₀, hes, -, hd⟩
  · exact ⟨rfl, hp.touch d env.now⟩
  · have hp₀ : ({ c with entries := es } : BinaryCache).PathsOk := hp.of_subset rfl fun e he => (hes e he).1
    exact (downloadAndCache_pathsOk hs hp₀ hd :)

/-- After a call for `d`, while `d` is indexed its path holds a file with digest `d`. -/
theorem getBinary_self (h : getBinary sortBy env c fs url d = (r, c', fs'))
    (hk : ∃ e ∈ c'.entries, e.sha256 = d) : ∃ b, fs' (c.pathOf d) = some b ∧ b.sha256 = d := by
  rcases getBinary_cases hp h with ⟨e, -, hv, -, -, rfl⟩ | ⟨es, fs₀, hes, -, hd⟩
  · exact verifySHA256_iff.mp hv
  · have hp₀ : ({ c with entries := es } : BinaryCache).PathsOk := hp.of_subset rfl fun e he => (hes e he).1
    exact (downloadAndCache_self hs hp₀ (fun e he => (hes e he).2) hd hk :)

/-- A call for `d` changes another digest's file or key only by evicting it. -/
theorem getBinary_frame (h : getBinary sortBy env c fs url d = (r, c', fs')) {d₀ : String}
    (hne : d₀ ≠ d) (hx : isHexDigest d₀ = true) (hk : ∃ e ∈ c'.entries, e.sha256 = d₀) :
    (∃ e ∈ c.entries, e.sha256 = d₀) ∧ fs' (c.pathOf d₀) = fs (c.pathOf d₀) := by
  rcases getBinary_cases hp h with ⟨e, -, -, -, rfl, rfl⟩ | ⟨es, fs₀, hes, hfs, hd⟩
  · obtain ⟨e, he, rfl⟩ := hk
    obtain ⟨e₀, h₀, hkey, -⟩ := mem_touch he
    exact ⟨⟨e₀, h₀, hkey.symm⟩, rfl⟩
  · have hp₀ : ({ c with entries := es } : BinaryCache).PathsOk := hp.of_subset rfl fun e he => (hes e he).1
    obtain ⟨⟨e, he, hk'⟩, hf⟩ := downloadAndCache_frame hs hp₀ hd hne hx hk
    refine ⟨⟨e, (hes e he).1, hk'⟩, hf.trans ?_⟩
    rcases hfs with rfl | ⟨hel, hfs⟩
    · rfl
    · exact hfs _ fun h => hne ((pathOf_inj (isPathElem_of_hex hx) hel).mp h)

/-- A successful call keeps `d` indexed when its download fits alone and is newest. -/
theorem getBinary_keeps {p : String} (h : getBinary sortBy env c fs url d = (r, c', fs'))
    (hr : r = .ok p) (hfit : ∀ b, env.fetched = some b → (b.size : Int) ≤ toInt64 (c.maxSizeMB * 1024 * 1024))
    (hold : ∀ e ∈ c.entries, e.sha256 ≠ d → e.lastAccess < env.now) :
    ∃ e ∈ c'.entries, e.sha256 = d := by
  rcases getBinary_cases hp h with ⟨e, he, -, -, rfl, -⟩ | ⟨es, fs₀, hes, -, hd⟩
  · exact touch_keys ⟨e, lookup_eq_some he⟩
  · exact downloadAndCache_keeps hs hd hr hfit fun e he => hold e (hes e he).1

end call

end executr.executor
