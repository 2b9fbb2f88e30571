-- The executor's cache at start: `NewBinaryCache` indexes each listed file under its
-- name at `Join(cacheDir, name)`, the start every cache run assumes.
import Executr.Executor.CacheDir

namespace executr.executor

open BinaryCache

/-! ## The load -/

/-- One name `os.ReadDir` lists, a directory or not, and its `Info()` if it can be read. -/
structure DirEntry where
  name : String
  isDir : Bool
  info : Option (Int × Int)
deriving DecidableEq, Repr

/-- The entry the loop of `loadEntries` makes of a listed name, if any. -/
def cacheEntryOf (cacheDir : String) (entry : DirEntry) : Option CacheEntry :=
  if entry.isDir then none
  else entry.info.map fun (size, modTime) => ⟨entry.name, filepathJoin cacheDir entry.name, size, modTime⟩

/-- One turn of the loop of `loadEntries`: `c.entries[name] = &cacheEntry{..}`. -/
def loadEntry (c : BinaryCache) (entry : DirEntry) : BinaryCache :=
  match cacheEntryOf c.cacheDir entry with
  | some e => c.insert e
  | none => c

/-- `loadEntries` on what `os.ReadDir` returns (none: it failed). -/
def BinaryCache.loadEntries (c : BinaryCache) : Option (List DirEntry) → BinaryCache
  | some entries => entries.foldl loadEntry c
  | none => c

/-- `NewBinaryCache`: `MkdirAll`, then the load, whose error is only logged. -/
def newBinaryCache (cacheDir : String) (maxSizeMB : Int) (mkdirOk : Bool)
    (listing : Option (List DirEntry)) : Except String BinaryCache :=
  if mkdirOk then .ok ((BinaryCache.mk cacheDir maxSizeMB []).loadEntries listing)
  else .error "failed to create cache directory"

/-! ## One turn of the loop -/

theorem cacheEntryOf_eq {dir : String} {entry : DirEntry} {e : CacheEntry}
    (h : cacheEntryOf dir entry = some e) :
    e.sha256 = entry.name ∧ e.path = filepathJoin dir entry.name := by
  unfold cacheEntryOf at h
  split at h
  · cases h
  · obtain ⟨⟨size, t⟩, -, rfl⟩ := Option.map_eq_some'.mp h
    exact ⟨rfl, rfl⟩

theorem BinaryCache.insert_keys_nodup {c : BinaryCache} (h : (c.entries.map (·.sha256)).Nodup)
    (n : CacheEntry) : ((c.insert n).entries.map (·.sha256)).Nodup := by
  simp only [BinaryCache.insert, BinaryCache.delete, List.map_cons, List.nodup_cons]
  refine ⟨fun hm => ?_, (List.filter_sublist _).map _ |>.nodup h⟩
  obtain ⟨e, he, hk⟩ := List.mem_map.mp hm
  simp only [List.mem_filter, bne_iff_ne, ne_eq, decide_eq_true_eq] at he
  exact he.2 hk

section turn

variable {c : BinaryCache} (entry : DirEntry)

theorem loadEntry_keys_nodup (h : (c.entries.map (·.sha256)).Nodup) :
    ((loadEntry c entry).entries.map (·.sha256)).Nodup := by
  unfold loadEntry
  split
  · exact insert_keys_nodup h _
  · exact h

theorem loadEntry_pathsOk (hp : c.PathsOk) (hn : isPathElem entry.name = true) : (loadEntry c entry).PathsOk := by
  unfold loadEntry
  split
  · rename_i e he
    obtain ⟨hk, hpath⟩ := cacheEntryOf_eq he
    exact hp.insert (hk ▸ hn) (by rw [hpath, hk]; rfl)
  · exact hp

theorem loadEntry_eq (hfresh : ∀ x ∈ c.entries, x.sha256 ≠ entry.name) :
    loadEntry c entry = { c with entries := (cacheEntryOf c.cacheDir entry).toList ++ c.entries } := by
  unfold loadEntry
  split
  · rename_i e he
    have hdel : (c.delete e.sha256).entries = c.entries := by
      refine List.filter_eq_self.mpr fun x hx => ?_
      simpa [(cacheEntryOf_eq he).1] using hfresh x hx
    simp [BinaryCache.insert, hdel, he]
  · rename_i he
    simp [he]

end turn

/-! ## The whole listing -/

section listing

variable {c : BinaryCache}

theorem foldl_loadEntry_keys_nodup (l : List DirEntry) (h : (c.entries.map (·.sha256)).Nodup) :
    ((l.foldl loadEntry c).entries.map (·.sha256)).Nodup := by
  induction l generalizing c with
  | nil => exact h
  | cons entry l ih => exact ih (loadEntry_keys_nodup entry h)

theorem foldl_loadEntry_pathsOk (l : List DirEntry) (hp : c.PathsOk) (hn : ∀ e ∈ l, isPathElem e.name = true) :
    (l.foldl loadEntry c).PathsOk := by
  induction l generalizing c with
  | nil => exact hp
  | cons entry l ih =>
    exact ih (loadEntry_pathsOk entry hp (hn entry (List.mem_cons_self _ _)))
      fun e he => hn e (List.mem_cons_of_mem _ he)

theorem foldl_loadEntry_eq (l : List DirEntry) (hnd : (l.map (·.name)).Nodup)
    (hfresh : ∀ e ∈ l, ∀ x ∈ c.entries, x.sha256 ≠ e.name) :
    l.foldl loadEntry c = { c with entries := (l.filterMap (cacheEntryOf c.cacheDir)).reverse ++ c.entries } := by
  induction l generalizing c with
  | nil => rfl
  | cons entry l ih =>
    obtain ⟨hout, hnd'⟩ := List.nodup_cons.mp hnd
    have h₁ := loadEntry_eq entry (hfresh entry (List.mem_cons_self _ _))
    have hfresh₁ : ∀ e ∈ l, ∀ x ∈ (loadEntry c entry).entries, x.sha256 ≠ e.name := by
      intro e he x hx
      rw [h₁, List.mem_append, Option.mem_toList] at hx
      rcases hx with hx | hx
      · rw [(cacheEntryOf_eq hx).1]
        exact fun h => hout (List.mem_map.mpr ⟨e, he, h.symm⟩)
      · exact hfresh e (List.mem_cons_of_mem _ he) x hx
    rw [List.foldl_cons, ih hnd' hfresh₁, h₁, List.filterMap_cons]
    cases cacheEntryOf c.cacheDir entry <;> simp

end listing

/-- `NewBinaryCache` indexes exactly the listed files with readable info under their
distinct names, each at its path when the names are plain. -/
theorem new_binary_cache_loads (cacheDir : String) (maxSizeMB : Int) (l : List DirEntry)
    (hnd : (l.map (·.name)).Nodup) :
    let c : BinaryCache := ⟨cacheDir, maxSizeMB, (l.filterMap (cacheEntryOf cacheDir)).reverse⟩
    newBinaryCache cacheDir maxSizeMB true (some l) = .ok c ∧ (c.entries.map (·.sha256)).Nodup ∧
      ((∀ e ∈ l, isPathElem e.name = true) → c.PathsOk) := by
  intro c
  have hc : (BinaryCache.mk cacheDir maxSizeMB []).loadEntries (some l) = c := by
    simpa using @foldl_loadEntry_eq ⟨cacheDir, maxSizeMB, []⟩ l hnd fun _ _ _ h => nomatch h
  refine ⟨by rw [newBinaryCache, if_pos rfl, hc], ?_, fun hn => ?_⟩
  · rw [← hc]
    exact foldl_loadEntry_keys_nodup l List.nodup_nil
  · rw [← hc]
    exact foldl_loadEntry_pathsOk l (fun _ h => nomatch h) hn

/-- A binary, a leftover temporary file, a subdirectory and an unreadable file. -/
def leftoverListing : List DirEntry :=
  [⟨digestA, false, some (300, 1)⟩, ⟨digestB ++ ".tmp", false, some (20, 2)⟩, ⟨"lost+found", true, none⟩,
   ⟨digestB, false, none⟩]

theorem leftover_listing_loads :
    (leftoverListing.map (·.name)).Nodup ∧
    let c : BinaryCache := ⟨"/cache", 400, (leftoverListing.filterMap (cacheEntryOf "/cache")).reverse⟩
    newBinaryCache "/cache" 400 true (some leftoverListing) = .ok c ∧ (c.entries.map (·.sha256)).Nodup ∧
      ((∀ e ∈ leftoverListing, isPathElem e.name = true) → c.PathsOk) :=
  ⟨by decide, new_binary_cache_loads "/cache" 400 leftoverListing (by decide)⟩

end executr.executor
