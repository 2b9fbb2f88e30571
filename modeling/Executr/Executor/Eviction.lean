-- What `evictIfNeeded` removes: the shortest prefix of the entries, oldest access
-- first, whose removal brings the total within the budget, or every entry.
import Executr.Executor.Cache

namespace executr.executor

open BinaryCache

/-! ## The loop on a prefix -/

/-- The keys of a list of entries removed from the index one after the other. -/
def deleteAll (c : BinaryCache) (xs : List CacheEntry) : BinaryCache :=
  xs.foldl (fun c x => c.delete x.sha256) c

/-- The files of a list of entries removed one after the other. -/
def removeAll (fs : Files) (xs : List CacheEntry) : Files :=
  xs.foldl (fun fs x => fs.remove x.path) fs

theorem deleteAll_entries (c : BinaryCache) (xs : List CacheEntry) :
    deleteAll c xs = { c with entries := c.entries.filter fun e => !xs.any (·.sha256 == e.sha256) } := by
  induction xs generalizing c with
  | nil => simp [deleteAll]
  | cons x xs ih =>
    simp only [deleteAll, List.foldl_cons] at ih ⊢
    rw [ih]
    simp only [BinaryCache.delete, List.filter_filter, List.any_cons, Bool.not_or]
    congr 2
    funext e
    rw [Bool.and_comm]
    by_cases h : e.sha256 = x.sha256
    · simp [h]
    · rw [bne_iff_ne.mpr h, beq_false_of_ne (Ne.symm h)]
      rfl

theorem removeAll_apply (fs : Files) (xs : List CacheEntry) (q : String) :
    removeAll fs xs q = if ∃ e ∈ xs, q = e.path then none else fs q := by
  induction xs generalizing fs with
  | nil => simp [removeAll]
  | cons x xs ih =>
    simp only [removeAll, List.foldl_cons] at ih ⊢
    rw [ih]
    by_cases hx : q = x.path <;> simp [hx]

/-- The loop removes the shortest prefix that brings the rest within `maxBytes`. -/
theorem evictLoop_prefix (maxBytes : Int) : ∀ (order : List CacheEntry) (c : BinaryCache) (fs : Files),
    ∃ k ≤ order.length,
      evictLoop maxBytes order (totalSize order) c fs = (deleteAll c (order.take k), removeAll fs (order.take k)) ∧
      (∀ j < k, maxBytes < totalSize (order.drop j)) ∧
      (totalSize (order.drop k) ≤ maxBytes ∨ k = order.length)
  | [], c, fs => ⟨0, le_rfl, rfl, fun _ h => absurd h (Nat.not_lt_zero _), .inr rfl⟩
  | x :: rest, c, fs => by
    by_cases hfit : totalSize (x :: rest) ≤ maxBytes
    · exact ⟨0, Nat.zero_le _, by simp [evictLoop, hfit, deleteAll, removeAll],
        fun _ h => absurd h (Nat.not_lt_zero _), .inl hfit⟩
    · obtain ⟨k, hk, hrun, hshort, hlast⟩ := evictLoop_prefix maxBytes rest (c.delete x.sha256) (fs.remove x.path)
      refine ⟨k + 1, Nat.succ_le_succ hk, ?_, fun j hj => ?_, ?_⟩
      · simp only [evictLoop, if_neg hfit, totalSize_cons_sub, hrun]
        rfl
      · cases j with
        | zero => exact Int.lt_of_not_ge hfit
        | succ j => exact hshort j (Nat.lt_of_succ_lt_succ hj)
      · simpa using hlast

/-! ## The entries it keeps -/

section keys

variable {c : BinaryCache} {order : List CacheEntry}

theorem deleteAll_eq_filter (hk : (c.entries.map (·.sha256)).Nodup) {xs : List CacheEntry}
    (hxs : ∀ x ∈ xs, x ∈ c.entries) :
    deleteAll c xs = { c with entries := c.entries.filter (· ∉ xs) } := by
  rw [deleteAll_entries]
  congr 1
  refine List.filter_congr fun e he => ?_
  have hkey : (xs.any (·.sha256 == e.sha256)) = decide (e ∈ xs) := by
    rw [Bool.eq_iff_iff, List.any_eq_true, decide_eq_true_iff]
    constructor
    · rintro ⟨x, hx, hxe⟩
      have := List.inj_on_of_nodup_map hk (hxs x hx) he (by simpa using hxe)
      exact this ▸ hx
    · exact fun h => ⟨e, h, by simp⟩
  simp [hkey]

theorem filter_not_take_perm (hnd : c.entries.Nodup) (hp : order.Perm c.entries) (k : Nat) :
    (c.entries.filter (· ∉ order.take k)).Perm (order.drop k) := by
  have hnd' : order.Nodup := hp.nodup_iff.mpr hnd
  have hdis := List.disjoint_take_drop hnd' (le_refl k)
  refine ((hp.symm.filter _).trans ?_)
  conv_lhs => rw [← List.take_append_drop k order]
  rw [List.filter_append, List.filter_eq_nil_iff.mpr (fun x hx => by simp [hx]),
    List.filter_eq_self.mpr (fun x hx => by simpa using fun h => hdis h hx)]
  rfl

end keys

/-- Within the `int64` budget `evictIfNeeded` changes nothing; over it, it removes the
shortest oldest-first prefix (or all) with its files, and keeps the newer entries. -/
theorem evict_lru_prefix (sortBy : List CacheEntry → List CacheEntry) (hs : SortsByAccess sortBy)
    (c : BinaryCache) (fs : Files) (hk : (c.entries.map (·.sha256)).Nodup) :
    let maxBytes := toInt64 (c.maxSizeMB * 1024 * 1024)
    let r := evictIfNeeded sortBy c fs
    (totalSize c.entries ≤ maxBytes → r = (c, fs)) ∧
    (maxBytes < totalSize c.entries → ∃ order : List CacheEntry, order.Perm c.entries ∧ order.Sorted accessOrder ∧
      ∃ k ≤ order.length,
        r.1 = { c with entries := c.entries.filter (· ∉ order.take k) } ∧
        (∀ q, r.2 q = if ∃ e ∈ order.take k, q = e.path then none else fs q) ∧
        (∀ j < k, maxBytes < totalSize (order.drop j)) ∧
        (totalSize (order.drop k) ≤ maxBytes ∨ k = order.length) ∧
        (totalSize r.1.entries ≤ maxBytes ∨ r.1.entries = []) ∧
        ∀ e ∈ r.1.entries, ∀ x ∈ order.take k, x.lastAccess ≤ e.lastAccess) := by
  intro maxBytes r
  refine ⟨fun hle => if_pos hle, fun hgt => ?_⟩
  obtain ⟨hperm, hsorted⟩ := hs c.entries
  obtain ⟨k, hk', hrun, hshort, hlast⟩ := evictLoop_prefix maxBytes (sortBy c.entries) c fs
  have hsub : ∀ x ∈ (sortBy c.entries).take k, x ∈ c.entries :=
    fun x hx => hperm.subset (List.mem_of_mem_take hx)
  have hr : r = ({ c with entries := c.entries.filter (· ∉ (sortBy c.entries).take k) },
      removeAll fs ((sortBy c.entries).take k)) := by
    show evictIfNeeded sortBy c fs = _
    rw [evictIfNeeded, if_neg (Int.not_le.mpr hgt), ← totalSize_perm hperm, ← deleteAll_eq_filter hk hsub]
    exact hrun
  have hrest := filter_not_take_perm (List.Nodup.of_map _ hk) hperm k
  rw [hr]
  refine ⟨_, hperm, hsorted, k, hk', rfl, removeAll_apply fs _, hshort, hlast, ?_, fun e he x hx => ?_⟩
  · rw [totalSize_perm hrest]
    rcases hlast with h | h
    · exact .inl h
    · have hd0 : (sortBy c.entries).drop k = [] := List.drop_eq_nil_of_le (by omega)
      exact .inr (List.Perm.eq_nil (hd0 ▸ hrest))
  · have he' : e ∈ (sortBy c.entries).drop k := hrest.subset he
    rw [← List.take_append_drop k (sortBy c.entries)] at hsorted
    exact (List.pairwise_append.mp hsorted).2.2 x hx e he'

-- A budget of 2^43 MB wraps to a negative `int64`: even a 1-byte entry goes.
example : (evictIfNeeded sortByAccess ⟨"/cache", 8796093022208, [⟨"a", "/cache/a", 1, 0⟩]⟩
    fun _ => none).1.entries = [] := by
  decide

/-- Three entries of 600 kB under a 1 MB budget, `b` the oldest. -/
def threeEntryCache : BinaryCache :=
  ⟨"/cache", 1, [⟨"a", "/cache/a", 600000, 3⟩, ⟨"b", "/cache/b", 600000, 1⟩, ⟨"c", "/cache/c", 600000, 2⟩]⟩

theorem three_entries_lru_prefix :
    let c := threeEntryCache
    let fs : Files := fun _ => none
    let maxBytes := toInt64 (c.maxSizeMB * 1024 * 1024)
    let r := evictIfNeeded sortByAccess c fs
    SortsByAccess sortByAccess ∧ (c.entries.map (·.sha256)).Nodup ∧
    (totalSize c.entries ≤ maxBytes → r = (c, fs)) ∧
    (maxBytes < totalSize c.entries → ∃ order : List CacheEntry, order.Perm c.entries ∧
      order.Sorted accessOrder ∧ ∃ k ≤ order.length,
        r.1 = { c with entries := c.entries.filter (· ∉ order.take k) } ∧
        (∀ q, r.2 q = if ∃ e ∈ order.take k, q = e.path then none else fs q) ∧
        (∀ j < k, maxBytes < totalSize (order.drop j)) ∧
        (totalSize (order.drop k) ≤ maxBytes ∨ k = order.length) ∧
        (totalSize r.1.entries ≤ maxBytes ∨ r.1.entries = []) ∧
        ∀ e ∈ r.1.entries, ∀ x ∈ order.take k, x.lastAccess ≤ e.lastAccess) :=
  ⟨sortByAccess_sorts, by decide,
    evict_lru_prefix sortByAccess sortByAccess_sorts threeEntryCache (fun _ => none) (by decide)⟩

end executr.executor
