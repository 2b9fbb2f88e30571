-- Go's built-in maps as the lists of their entries, and its fixed-width
-- integers as `Int` with the two's complement wrap of their conversions and
-- arithmetic.
import Mathlib.Data.List.Nodup

namespace executr

/-! ## Integers -/

/-- Go's `int32(x)`: the two's complement wrap of an `int`. -/
def toInt32 (x : Int) : Int := x.bmod (Nat.pow 2 32)

/-- Go's `int64` arithmetic wraps. -/
def toInt64 (x : Int) : Int := x.bmod (Nat.pow 2 64)

theorem toInt64_of_range {x : Int} (h1 : -9223372036854775808 ≤ x) (h2 : x < 9223372036854775808) :
    toInt64 x = x := by
  simp only [toInt64, Int.bmod, show ((Nat.pow 2 64 : Nat) : Int) = 18446744073709551616 from rfl]
  split <;> omega

theorem toInt64_lt (x : Int) : toInt64 x < 9223372036854775808 :=
  Int.bmod_lt (by decide)

theorem toInt64_sub_toInt64 (a b : Int) : toInt64 (toInt64 a - b) = toInt64 (a - b) :=
  Int.bmod_sub_bmod_congr

/-! ## Maps -/

variable {κ β : Type} [DecidableEq κ]

/-- `m[k] = v` on a Go map, kept as the list of its entries. -/
def assign (m : List (κ × β)) (k : κ) (v : β) : List (κ × β) :=
  (k, v) :: m.filter (·.1 != k)

/-- `m[k]` with its `ok`: the value of the key's entry, if there is one. -/
def mapGet (m : List (κ × β)) (k : κ) : Option β :=
  (m.find? (·.1 == k)).map (·.2)

theorem mapGet_filter_ne (m : List (κ × β)) {k k' : κ} (h : k' ≠ k) :
    mapGet (m.filter (·.1 != k)) k' = mapGet m k' := by
  rw [mapGet, mapGet, List.find?_filter]
  congr 2
  funext e
  by_cases he : e.1 = k' <;> simp [he, h]

@[simp] theorem mapGet_assign (m : List (κ × β)) (k k' : κ) (v : β) :
    mapGet (assign m k v) k' = if k' = k then some v else mapGet m k' := by
  by_cases h : k' = k
  · simp [assign, mapGet, h]
  · rw [if_neg h, ← mapGet_filter_ne m h]
    simp [assign, mapGet, Ne.symm h]

theorem assign_keys_nodup {m : List (κ × β)} (h : (m.map (·.1)).Nodup) (k : κ) (v : β) :
    ((assign m k v).map (·.1)).Nodup := by
  refine List.nodup_cons.mpr ⟨by simp, ?_⟩
  exact (List.Sublist.map _ (List.filter_sublist _)).nodup h

theorem mapGet_foldl_assign {α : Type} (kf : α → κ) (vf : α → β) (k : κ) :
    ∀ (es : List α) (m : List (κ × β)), (es.map kf).Nodup →
      mapGet (es.foldl (fun m e => assign m (kf e) (vf e)) m) k =
        ((es.find? (kf · == k)).map vf).or (mapGet m k)
  | [], _, _ => rfl
  | e :: es, m, hnd => by
    rw [List.map_cons, List.nodup_cons] at hnd
    rw [List.foldl_cons, mapGet_foldl_assign kf vf k es _ hnd.2, List.find?_cons, mapGet_assign]
    by_cases he : kf e = k
    · have hnone : es.find? (kf · == k) = none :=
        List.find?_eq_none.mpr fun x hx hk => hnd.1 (List.mem_map.mpr ⟨x, hx, (beq_iff_eq.mp hk).trans he.symm⟩)
      simp [hnone, he]
    · cases es.find? (kf · == k) <;> simp [he, Ne.symm he, beq_eq_false_iff_ne.mpr he]

theorem foldl_assign_keys_nodup {α : Type} (kf : α → κ) (vf : α → β) :
    ∀ (es : List α) {m : List (κ × β)}, (m.map (·.1)).Nodup →
      ((es.foldl (fun m e => assign m (kf e) (vf e)) m).map (·.1)).Nodup
  | [], _, h => h
  | _ :: es, _, h => foldl_assign_keys_nodup kf vf es (assign_keys_nodup h _ _)

theorem mapGet_append (m m' : List (κ × β)) (k : κ) :
    mapGet (m ++ m') k = (mapGet m k).or (mapGet m' k) := by
  simp only [mapGet, List.find?_append]
  cases m.find? (·.1 == k) <;> rfl

theorem mapGet_foldl_assign_last (k : κ) :
    ∀ (es m : List (κ × β)),
      mapGet (es.foldl (fun m e => assign m e.1 e.2) m) k = (mapGet es.reverse k).or (mapGet m k)
  | [], _ => rfl
  | e :: es, m => by
    rw [List.foldl_cons, mapGet_foldl_assign_last k es, mapGet_assign, List.reverse_cons, mapGet_append,
      Option.or_assoc]
    by_cases h : k = e.1
    · simp [mapGet, h]
    · simp [mapGet, h, Ne.symm h]

theorem mem_foldl_assign :
    ∀ (es : List (κ × β)) {m : List (κ × β)} {x : κ × β},
      x ∈ es.foldl (fun m e => assign m e.1 e.2) m → x ∈ es ∨ x ∈ m
  | [], _, _, h => .inr h
  | e :: es, _, _, h => by
    rcases mem_foldl_assign es h with h | h
    · exact .inl (List.mem_cons_of_mem e h)
    · rcases List.mem_cons.mp h with rfl | h
      · exact .inl (List.mem_cons_self _ _)
      · exact .inr (List.mem_of_mem_filter h)

end executr
