-- `filepath.Clean` (the algorithm of `path.Clean` too) and `filepath.Join` on Unix;
-- joined to a plain name a directory gives a fixed prefix and the name.
import Mathlib.Data.List.Basic

namespace executr.executor

/-! ## `Clean` and `Join` -/

/-- One element of `Clean`'s scan, kept elements last first. -/
def cleanStep (rooted : Bool) (out : List (List Char)) (elem : List Char) : List (List Char) :=
  if elem = [] ∨ elem = ['.'] then out
  else if elem = ['.', '.'] then
    match out with
    | [] => if rooted then [] else [['.', '.']]
    | x :: rest => if x = ['.', '.'] then ['.', '.'] :: x :: rest else rest
  else elem :: out

/-- The path begins at the root. -/
def rootedPath (p : String) : Bool := p.data.head? == some '/'

/-- The elements `Clean` keeps, last first. -/
def cleanElems (p : String) : List (List Char) :=
  (p.data.splitOn '/').foldl (cleanStep (rootedPath p)) []

/-- `filepath.Clean`: the kept elements joined by `/`; `.` for an empty relative result. -/
def cleanPath (p : String) : String :=
  if p = "" then "."
  else
    let body := ['/'].intercalate (cleanElems p).reverse
    if rootedPath p then ⟨'/' :: body⟩ else if body = [] then "." else ⟨body⟩

/-- `filepath.Join(dir, name)`: the non-empty of the two joined by `/`, cleaned. -/
def filepathJoin (dir name : String) : String :=
  if dir = "" then (if name = "" then "" else cleanPath name)
  else cleanPath (dir ++ "/" ++ name)

/-- A plain file name, as `os.ReadDir` lists them. -/
def isPathElem (n : String) : Bool :=
  n != "" && n != "." && n != ".." && !n.data.contains '/'

/-- What `Join(dir, name)` puts before a plain file name. -/
def dirPrefix (dir : String) : String :=
  if dir = "" then ""
  else ⟨(if rootedPath dir then ['/'] else []) ++
    (if cleanElems dir = [] then [] else ['/'].intercalate (cleanElems dir).reverse ++ ['/'])⟩

/-! ## Joining a plain file name -/

section lists

variable {α : Type}

theorem intercalate_append_single (x : α) (b : List α) :
    ∀ l : List (List α), l ≠ [] → [x].intercalate (l ++ [b]) = [x].intercalate l ++ x :: b
  | [a], _ => by simp [List.intercalate]
  | a :: a' :: l, _ => by
    have ih := intercalate_append_single x b (a' :: l) (List.cons_ne_nil _ _)
    simp only [List.cons_append] at ih ⊢
    simp only [List.intercalate, List.intersperse_cons_cons, List.flatten_cons] at ih ⊢
    rw [ih]
    simp

variable [DecidableEq α]

theorem splitOn_append_sep (sep : α) (m : List α) (hm : sep ∉ m) :
    ∀ l : List α, (l ++ sep :: m).splitOn sep = l.splitOn sep ++ [m]
  | [] => by
    simp only [List.nil_append, List.splitOn, List.splitOnP_cons, beq_self_eq_true, if_true,
      List.splitOnP_nil, List.singleton_append]
    rw [List.splitOnP_eq_single _ _ fun x hx (h : (x == sep) = true) => hm (eq_of_beq h ▸ hx)]
  | x :: l => by
    have ih := splitOn_append_sep sep m hm l
    simp only [List.splitOn] at ih ⊢
    rw [List.cons_append, List.splitOnP_cons, List.splitOnP_cons, ih]
    split
    · rfl
    · obtain ⟨g, gs, hg⟩ := List.exists_cons_of_ne_nil (List.splitOnP_ne_nil (· == sep) l)
      rw [hg]
      rfl

end lists

section elem

variable {n : String}

theorem isPathElem_iff : isPathElem n = true ↔ n ≠ "" ∧ n ≠ "." ∧ n ≠ ".." ∧ '/' ∉ n.data := by
  simp [isPathElem, and_assoc]

theorem cleanStep_elem (rooted : Bool) (out : List (List Char)) (h : isPathElem n = true) :
    cleanStep rooted out n.data = n.data :: out := by
  obtain ⟨h1, h2, h3, -⟩ := isPathElem_iff.mp h
  have e1 : n.data ≠ [] := fun e => h1 (String.ext e)
  have e2 : n.data ≠ ['.'] := fun e => h2 (String.ext e)
  have e3 : n.data ≠ ['.', '.'] := fun e => h3 (String.ext e)
  simp [cleanStep, e1, e2, e3]

/-- Joined to a plain file name, a directory gives its prefix and the name. -/
theorem filepathJoin_elem (dir : String) (h : isPathElem n = true) : filepathJoin dir n = dirPrefix dir ++ n := by
  obtain ⟨h1, -, -, h4⟩ := isPathElem_iff.mp h
  by_cases hd : dir = ""
  · subst hd
    have hs : n.data.splitOn '/' = [n.data] :=
      List.splitOnP_eq_single _ _ fun x hx (e : (x == '/') = true) => h4 (eq_of_beq e ▸ hx)
    have hr : rootedPath n = false := by
      cases hn : n.data with
      | nil => exact absurd (String.ext hn) h1
      | cons c cs =>
        have : c ≠ '/' := fun e => h4 (hn ▸ e ▸ List.mem_cons_self _ _)
        simp [rootedPath, hn, this]
    have he : n.data ≠ [] := fun e => h1 (String.ext e)
    simp only [filepathJoin, dirPrefix, if_true, if_neg h1, cleanPath, cleanElems, hs, List.foldl_cons,
      List.foldl_nil, cleanStep_elem _ _ h, List.reverse_singleton, hr, Bool.false_eq_true, if_false]
    simp [List.intercalate, he]
  · have he : n.data ≠ [] := fun e => h1 (String.ext e)
    have hdata : (dir ++ "/" ++ n).data = dir.data ++ '/' :: n.data := by simp
    have hne : dir ++ "/" ++ n ≠ "" := fun e => by simpa [hdata] using congrArg String.data e
    have hr : rootedPath (dir ++ "/" ++ n) = rootedPath dir := by
      obtain ⟨c, cs, hc⟩ := List.exists_cons_of_ne_nil fun e => hd (String.ext e)
      simp [rootedPath, hdata, hc]
    have helems : cleanElems (dir ++ "/" ++ n) = n.data :: cleanElems dir := by
      rw [cleanElems, hdata, splitOn_append_sep _ _ h4, List.foldl_append, hr]
      simp [cleanStep_elem _ _ h, cleanElems]
    rw [filepathJoin, if_neg hd, cleanPath, if_neg hne, dirPrefix, if_neg hd]
    simp only [helems, hr, List.reverse_cons]
    apply String.ext
    by_cases hout : cleanElems dir = []
    · rw [hout]
      cases rootedPath dir <;> simp [List.intercalate, he]
    · rw [intercalate_append_single _ _ _ (by simpa using hout)]
      cases rootedPath dir <;> simp [hout]

theorem isPathElem_append_tmp (h : isPathElem n = true) : isPathElem (n ++ ".tmp") = true := by
  obtain ⟨h1, -, -, h4⟩ := isPathElem_iff.mp h
  have hl : 5 ≤ (n ++ ".tmp").length := by
    have : 0 < n.length := by
      cases hn : n.data with
      | nil => exact absurd (String.ext hn) h1
      | cons c cs => simp [String.length, hn]
    have h4' : ".tmp".length = 4 := rfl
    rw [String.length_append, h4']
    omega
  refine isPathElem_iff.mpr ⟨?_, ?_, ?_, ?_⟩
  · intro e; rw [e] at hl; exact absurd hl (by decide)
  · intro e; rw [e] at hl; exact absurd hl (by decide)
  · intro e; rw [e] at hl; exact absurd hl (by decide)
  · simp only [String.data_append, List.mem_append, not_or]
    exact ⟨h4, by decide⟩

theorem filepathJoin_inj {dir a b : String} (ha : isPathElem a = true) (hb : isPathElem b = true) :
    filepathJoin dir a = filepathJoin dir b ↔ a = b := by
  rw [filepathJoin_elem dir ha, filepathJoin_elem dir hb]
  refine ⟨fun h => String.ext (List.append_cancel_left (congrArg String.data h : _ ++ _ = _ ++ _)), fun h => h ▸ rfl⟩

theorem filepathJoin_tmp {dir : String} (h : isPathElem n = true) :
    filepathJoin dir n ++ ".tmp" = filepathJoin dir (n ++ ".tmp") := by
  rw [filepathJoin_elem dir h, filepathJoin_elem dir (isPathElem_append_tmp h), String.append_assoc]

end elem

theorem foldl_cleanStep_elems (rooted : Bool) :
    ∀ (es : List String), (∀ e ∈ es, isPathElem e = true) →
      ∀ out, (es.map String.data).foldl (cleanStep rooted) out = (es.map String.data).reverse ++ out
  | [], _, _ => rfl
  | e :: es, h, out => by
    rw [List.map_cons, List.foldl_cons, cleanStep_elem _ _ (h e (List.mem_cons_self e es)),
      foldl_cleanStep_elems rooted es fun e' he' => h e' (List.mem_cons_of_mem e he')]
    simp

/-- A rooted path of plain elements is clean. -/
theorem cleanPath_plain (es : List String) (h : ∀ e ∈ es, isPathElem e = true) (hne : es ≠ []) :
    cleanPath ⟨'/' :: ['/'].intercalate (es.map String.data)⟩ =
      ⟨'/' :: ['/'].intercalate (es.map String.data)⟩ := by
  have hsep : ∀ l ∈ es.map String.data, '/' ∉ l := by
    simp only [List.mem_map]
    rintro _ ⟨e, he, rfl⟩
    exact (isPathElem_iff.mp (h e he)).2.2.2
  have hsplit : ('/' :: ['/'].intercalate (es.map String.data)).splitOn '/' = [] :: es.map String.data := by
    rw [List.splitOn, List.splitOnP_cons, if_pos (beq_self_eq_true _)]
    exact congrArg _ (List.splitOn_intercalate _ '/' hsep (by simpa using hne))
  rw [cleanPath, if_neg fun e => List.cons_ne_nil _ _ (congrArg String.data e)]
  simp only [cleanElems, hsplit, rootedPath, List.head?_cons, beq_self_eq_true, if_true, List.foldl_cons]
  rw [show cleanStep true [] [] = [] from rfl, foldl_cleanStep_elems true es h, List.append_nil,
    List.reverse_reverse]

end executr.executor
