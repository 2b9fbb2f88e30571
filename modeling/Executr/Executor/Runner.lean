-- The output cap of the job runner: `truncateOutput` keeps the first 500 lines, a
-- marker and the last lines that fit in 1 MiB.
import Mathlib.Data.List.Basic

namespace executr.executor

/-! ## The model -/

/-- `maxOutputSize`: 1 MiB. -/
def maxOutputSize : Nat := 1024 * 1024

def maxHeadLines : Nat := 500

/-- The byte of `"\n"`. -/
def newline : UInt8 := 10

/-- Go's `s[:n]`, which panics unless `n ≤ len(s)`. -/
def sliceTo {α : Type} (xs : List α) (n : Nat) : Option (List α) :=
  if n ≤ xs.length then some (xs.take n) else none

/-- `strings.Join(lines, "\n")`. -/
def joinLines : List (List UInt8) → List UInt8
  | [] => []
  | [a] => a
  | a :: b :: t => a ++ newline :: joinLines (b :: t)

/-- The bytes of an ASCII text. -/
def ascii (t : String) : List UInt8 := t.toList.map Char.toUInt8

/-- The marker `fmt.Sprintf` builds from the output's size and line count. -/
def truncMarker (size lines : Nat) : List UInt8 :=
  ascii "\n... [OUTPUT TRUNCATED - Total " ++ ascii (toString size) ++ ascii " bytes, " ++
    ascii (toString lines) ++ ascii " lines] ...\n"

/-- The loop keeping the last lines, index `maxHeadLines + k - 1` with `k` turns left;
it stops at the first line that does not fit. -/
def keepTail (lines : List (List UInt8)) (remaining : Int) :
    Nat → List (List UInt8) → Int → Option (List (List UInt8))
  | 0, tailLines, _ => some tailLines
  | k + 1, tailLines, tailSize =>
    match lines[maxHeadLines + k]? with
    | none => none
    | some line =>
      let lineSize : Int := line.length + 1
      if tailSize + lineSize > remaining then some tailLines
      else keepTail lines remaining k (line :: tailLines) (tailSize + lineSize)

/-- `truncateOutput`; `none` is a slice out of range, where Go panics. -/
def truncateOutput (output : List UInt8) : Option (List UInt8) :=
  if output.length ≤ maxOutputSize then some output
  else
    let lines := output.splitOn newline
    if lines.length ≤ maxHeadLines then sliceTo output maxOutputSize
    else do
      let head ← sliceTo lines maxHeadLines
      let result := joinLines head ++ truncMarker output.length lines.length
      let remaining : Int := maxOutputSize - result.length
      if remaining ≤ 0 then sliceTo result maxOutputSize
      else do
        let tailLines ← keepTail lines remaining (lines.length - maxHeadLines) [] 0
        pure (if tailLines.length > 0 then result ++ joinLines tailLines else result)

/-- The bytes lines take, each with its newline. -/
def linesCost : List (List UInt8) → Nat
  | [] => 0
  | line :: rest => line.length + 1 + linesCost rest

/-- The bytes the lines from `j` on take, each with its newline. -/
def tailCost (lines : List (List UInt8)) (j : Nat) : Nat := linesCost (lines.drop j)

/-! ## Joining lines -/

theorem sliceTo_of_le {α : Type} {xs : List α} {n : Nat} (h : n ≤ xs.length) :
    sliceTo xs n = some (xs.take n) := if_pos h

theorem joinLines_cons (a : List UInt8) {t : List (List UInt8)} (h : t ≠ []) :
    joinLines (a :: t) = a ++ newline :: joinLines t := by
  cases t with
  | nil => exact absurd rfl h
  | cons b t => rfl

theorem joinLines_eq_intercalate : ∀ ls : List (List UInt8), joinLines ls = [newline].intercalate ls
  | [] => rfl
  | [a] => by simp [joinLines, List.intercalate]
  | a :: b :: t => by
    rw [joinLines, joinLines_eq_intercalate (b :: t)]
    simp [List.intercalate, List.intersperse_cons_cons]

theorem joinLines_splitOn (s : List UInt8) : joinLines (s.splitOn newline) = s := by
  rw [joinLines_eq_intercalate, List.intercalate_splitOn]

theorem joinLines_take_drop : ∀ (ls : List (List UInt8)) (j : Nat), 0 < j → j < ls.length →
    joinLines ls = joinLines (ls.take j) ++ newline :: joinLines (ls.drop j)
  | [], _, _, h => absurd h (Nat.not_lt_zero _)
  | [_], j, h0, h => absurd h (by simp; omega)
  | a :: b :: t, 1, _, _ => rfl
  | a :: b :: t, j + 2, _, h => by
    have ih := joinLines_take_drop (b :: t) (j + 1) (Nat.succ_pos _) (by simp at h ⊢; omega)
    rw [List.take_succ_cons, List.drop_succ_cons, joinLines_cons a (by simp),
      joinLines_cons a (by simp), ih, List.append_assoc, List.cons_append]

theorem length_joinLines_le : ∀ ls : List (List UInt8), (joinLines ls).length ≤ linesCost ls
  | [] => Nat.zero_le _
  | [a] => by simp [joinLines, linesCost]
  | a :: b :: t => by
    have ih := length_joinLines_le (b :: t)
    rw [joinLines_cons a (by simp)]
    simp only [List.length_append, List.length_cons, linesCost] at ih ⊢
    omega

theorem joinLines_take_prefix (ls : List (List UInt8)) (j : Nat) :
    joinLines (ls.take j) <+: joinLines ls := by
  rcases Nat.eq_zero_or_pos j with rfl | h0
  · exact List.nil_prefix
  rcases Nat.lt_or_ge j ls.length with h | h
  · rw [joinLines_take_drop ls j h0 h]
    exact List.prefix_append _ _
  · simp only [List.take_of_length_le h, List.prefix_refl]

theorem joinLines_drop_suffix (ls : List (List UInt8)) {j : Nat} (h0 : 0 < j) :
    joinLines (ls.drop j) <:+ joinLines ls := by
  rcases Nat.lt_or_ge j ls.length with h | h
  · rw [joinLines_take_drop ls j h0 h]
    exact (List.suffix_cons _ _).trans (List.suffix_append _ _)
  · rw [List.drop_eq_nil_of_le h]
    exact List.nil_suffix

theorem append_tail_eq (result : List UInt8) (tl : List (List UInt8)) :
    (if tl.length > 0 then result ++ joinLines tl else result) = result ++ joinLines tl := by
  cases tl <;> simp [joinLines]

/-! ## The cost of a tail -/

theorem tailCost_eq {lines : List (List UInt8)} {j : Nat} (h : j < lines.length) :
    tailCost lines j = lines[j].length + 1 + tailCost lines (j + 1) := by
  unfold tailCost
  rw [List.drop_eq_getElem_cons h, linesCost]

theorem tailCost_length (lines : List (List UInt8)) : tailCost lines lines.length = 0 := by
  simp only [tailCost, List.drop_length, linesCost]

theorem tailCost_succ_le (lines : List (List UInt8)) (j : Nat) :
    tailCost lines (j + 1) ≤ tailCost lines j := by
  rcases Nat.lt_or_ge j lines.length with h | h
  · rw [tailCost_eq h]
    omega
  · simp [tailCost, linesCost, List.drop_eq_nil_of_le h, List.drop_eq_nil_of_le (Nat.le_succ_of_le h)]

theorem tailCost_anti (lines : List (List UInt8)) {j j' : Nat} (h : j ≤ j') :
    tailCost lines j' ≤ tailCost lines j := by
  induction h with
  | refl => exact Nat.le_refl _
  | step _ ih => exact Nat.le_trans (tailCost_succ_le lines _) ih

/-! ## The loop over the last lines -/

/-- The loop ends on the lines from the least `j ≥ maxHeadLines` whose cost fits. -/
theorem keepTail_spec (lines : List (List UInt8)) (rem : Int) :
    ∀ k, maxHeadLines + k ≤ lines.length → (tailCost lines (maxHeadLines + k) : Int) ≤ rem →
      ∃ j, maxHeadLines ≤ j ∧ j ≤ maxHeadLines + k ∧ (tailCost lines j : Int) ≤ rem ∧
        (∀ j', maxHeadLines ≤ j' → j' < j → rem < tailCost lines j') ∧
        keepTail lines rem k (lines.drop (maxHeadLines + k)) (tailCost lines (maxHeadLines + k)) =
          some (lines.drop j)
  | 0, _, hc => ⟨maxHeadLines, Nat.le_refl _, Nat.le_refl _, hc, fun _ h1 h2 => absurd h2 (by omega), rfl⟩
  | k + 1, hk, hc => by
    have hlt : maxHeadLines + k < lines.length := by omega
    have hcost := tailCost_eq hlt
    rw [← Nat.add_assoc] at hk hc ⊢
    simp only [keepTail, List.getElem?_eq_getElem hlt]
    split
    · rename_i hgt
      refine ⟨maxHeadLines + k + 1, by omega, Nat.le_refl _, hc, fun j' h1 h2 => ?_, rfl⟩
      have := tailCost_anti lines (show j' ≤ maxHeadLines + k by omega)
      omega
    · rename_i hle
      obtain ⟨j, h1, h2, h3, h4, h5⟩ := keepTail_spec lines rem k (by omega) (by omega)
      refine ⟨j, h1, by omega, h3, h4, ?_⟩
      rw [← h5, List.drop_eq_getElem_cons hlt, hcost]
      push_cast
      congr 1
      omega

/-! ## `truncateOutput` -/

section truncate

variable {s : List UInt8}

theorem truncateOutput_short (h : s.length ≤ maxOutputSize) : truncateOutput s = some s :=
  if_pos h

/-- Past the cap, with room after the head and marker: head, marker, longest tail. -/
theorem truncateOutput_tail (hs : maxOutputSize < s.length)
    (hn : maxHeadLines < (s.splitOn newline).length)
    (hm : (joinLines ((s.splitOn newline).take maxHeadLines) ++
      truncMarker s.length (s.splitOn newline).length).length < maxOutputSize) :
    ∃ j, maxHeadLines ≤ j ∧ j ≤ (s.splitOn newline).length ∧
      (tailCost (s.splitOn newline) j : Int) ≤ maxOutputSize -
        (joinLines ((s.splitOn newline).take maxHeadLines) ++
          truncMarker s.length (s.splitOn newline).length).length ∧
      (∀ j', maxHeadLines ≤ j' → j' < j → (maxOutputSize : Int) -
        (joinLines ((s.splitOn newline).take maxHeadLines) ++
          truncMarker s.length (s.splitOn newline).length).length < tailCost (s.splitOn newline) j') ∧
      truncateOutput s = some (joinLines ((s.splitOn newline).take maxHeadLines) ++
        truncMarker s.length (s.splitOn newline).length ++
        joinLines ((s.splitOn newline).drop j)) := by
  set lines := s.splitOn newline with hlines
  set R := joinLines (lines.take maxHeadLines) ++ truncMarker s.length lines.length with hR
  have hall : maxHeadLines + (lines.length - maxHeadLines) = lines.length := by omega
  obtain ⟨j, h1, h2, h3, h4, h5⟩ := keepTail_spec lines (maxOutputSize - R.length)
    (lines.length - maxHeadLines) (by omega) (by rw [hall, tailCost_length]; omega)
  rw [hall, List.drop_length, tailCost_length, Int.ofNat_zero] at h5
  refine ⟨j, h1, by omega, h3, h4, ?_⟩
  have hrem : ¬ ((maxOutputSize : Int) - R.length ≤ 0) := by omega
  simp only [truncateOutput, if_neg (show ¬ s.length ≤ maxOutputSize by omega), ← hlines,
    if_neg (show ¬ lines.length ≤ maxHeadLines by omega), sliceTo_of_le (Nat.le_of_lt hn)]
  simp only [Option.bind_eq_bind, Option.some_bind, ← hR, if_neg hrem, h5, append_tail_eq]
  rfl

theorem truncateOutput_bounded (s : List UInt8) :
    ∃ r, truncateOutput s = some r ∧ r.length ≤ maxOutputSize := by
  by_cases hs : s.length ≤ maxOutputSize
  · exact ⟨s, truncateOutput_short hs, hs⟩
  by_cases hn : (s.splitOn newline).length ≤ maxHeadLines
  · refine ⟨s.take maxOutputSize, ?_, List.length_take_le _ _⟩
    simp only [truncateOutput, if_neg hs, if_pos hn, sliceTo_of_le (by omega : maxOutputSize ≤ s.length)]
  by_cases hm : (joinLines ((s.splitOn newline).take maxHeadLines) ++
      truncMarker s.length (s.splitOn newline).length).length < maxOutputSize
  · obtain ⟨j, -, -, hj, -, h⟩ := truncateOutput_tail (by omega) (by omega) hm
    have hT : (joinLines ((s.splitOn newline).drop j)).length ≤ tailCost (s.splitOn newline) j :=
      length_joinLines_le _
    refine ⟨_, h, ?_⟩
    rw [List.length_append]
    omega
  · refine ⟨List.take maxOutputSize (joinLines ((s.splitOn newline).take maxHeadLines) ++
      truncMarker s.length (s.splitOn newline).length), ?_, List.length_take_le _ _⟩
    simp only [truncateOutput, if_neg hs, if_neg hn, sliceTo_of_le (Nat.le_of_lt (not_le.mp hn)),
      Option.bind_eq_bind, Option.some_bind, if_pos (by omega : (maxOutputSize : Int) -
        (joinLines ((s.splitOn newline).take maxHeadLines) ++
          truncMarker s.length (s.splitOn newline).length).length ≤ 0),
      sliceTo_of_le (not_lt.mp hm)]

end truncate

/-- `truncateOutput` never panics, keeps within 1 MiB and is idempotent; past the cap it
is head, marker and the longest tail of lines from 500 on that fits. -/
theorem truncate_capped_idempotent_tail (s : List UInt8) :
    ∃ r, truncateOutput s = some r ∧ r.length ≤ maxOutputSize ∧ truncateOutput r = some r ∧
      let lines := s.splitOn newline
      let H := joinLines (lines.take maxHeadLines)
      let M := truncMarker s.length lines.length
      (maxOutputSize < s.length → maxHeadLines < lines.length → (H ++ M).length < maxOutputSize →
        H <+: s ∧ ∃ j, maxHeadLines ≤ j ∧ j ≤ lines.length ∧
          r = H ++ M ++ joinLines (lines.drop j) ∧ joinLines (lines.drop j) <:+ s ∧
          tailCost lines j ≤ maxOutputSize - (H ++ M).length ∧
          ∀ j', maxHeadLines ≤ j' → j' < j → maxOutputSize - (H ++ M).length < tailCost lines j') := by
  obtain ⟨r, hr, hlen⟩ := truncateOutput_bounded s
  refine ⟨r, hr, hlen, truncateOutput_short hlen, fun hs hn hm => ?_⟩
  obtain ⟨j, h1, h2, h3, h4, h5⟩ := truncateOutput_tail hs hn hm
  have hH := joinLines_take_prefix (s.splitOn newline) maxHeadLines
  have hT := joinLines_drop_suffix (s.splitOn newline) (by unfold maxHeadLines at h1; omega : 0 < j)
  rw [joinLines_splitOn] at hH hT
  exact ⟨hH, j, h1, h2, Option.some.inj (hr.symm.trans h5), hT, by omega,
    fun j' h h' => by have := h4 j' h h'; omega⟩

end executr.executor
