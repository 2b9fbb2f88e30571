-- `handleJobByID` on the bytes of the path: `uuid.Parse` on the first 36 bytes of
-- the rest and the switch on what follows; `idStr[:36]` panics on a shorter rest.
import Mathlib.Data.List.Basic

namespace executr.server

/-! ## The path -/

/-- The bytes of an ASCII text. -/
def ascii (t : String) : List UInt8 := t.toList.map Char.toUInt8

/-- `"/api/v1/jobs/"`, 13 bytes. -/
def jobsPrefix : List UInt8 := ascii "/api/v1/jobs/"

/-- `xvalues` of google/uuid: the value of a hex digit. -/
def xvalue (b : UInt8) : Option UInt8 :=
  if 48 ≤ b ∧ b ≤ 57 then some (b - 48)
  else if 97 ≤ b ∧ b ≤ 102 then some (b - 87)
  else if 65 ≤ b ∧ b ≤ 70 then some (b - 55)
  else none

/-- `xtob`: a byte from two hex digits. -/
def xtob (x1 x2 : UInt8) : Option UInt8 := do
  let b1 ← xvalue x1
  let b2 ← xvalue x2
  pure (b1 * 16 + b2)

/-- Where the sixteen byte pairs of the 36-byte form start. -/
def uuidPairs : List Nat := [0, 2, 4, 6, 9, 11, 14, 16, 19, 21, 24, 26, 28, 30, 32, 34]

/-- `uuid.Parse` on the 36-byte form, the only length `handleJobByID` passes. -/
def uuidParse (s : List UInt8) : Option (List UInt8) :=
  if s[8]? ≠ some 45 ∨ s[13]? ≠ some 45 ∨ s[18]? ≠ some 45 ∨ s[23]? ≠ some 45 then none
  else uuidPairs.mapM fun x => do xtob (← s[x]?) (← s[x + 1]?)

/-! ## The handler -/

/-- Where a request to the subtree goes. -/
inductive Route
  | getJob (jobID : List UInt8)
  | cancelJob (jobID : List UInt8)
  | heartbeat (jobID : List UInt8)
  | completeJob (jobID : List UInt8)
  | failJob (jobID : List UInt8)
  | claimJob
  /-- `http.Error`, `writeError` or `http.NotFound`, with no handler run. -/
  | reject (code : Nat) (message : String)
deriving DecidableEq, Repr

/-- The `switch subPath` of `handleJobByID`, once the id has parsed. -/
def routeSubPath (subPath : List UInt8) (method : String) (jobID : List UInt8) : Route :=
  if subPath = [] ∨ subPath = ascii "/" then
    if method = "GET" then .getJob jobID
    else if method = "DELETE" then .cancelJob jobID
    else .reject 405 "Method not allowed"
  else if subPath = ascii "/heartbeat" then
    if method = "PUT" then .heartbeat jobID else .reject 405 "Method not allowed"
  else if subPath = ascii "/complete" then
    if method = "PUT" then .completeJob jobID else .reject 405 "Method not allowed"
  else if subPath = ascii "/fail" then
    if method = "PUT" then .failJob jobID else .reject 405 "Method not allowed"
  else .reject 404 "404 page not found"

/-- `handleJobByID`; none is the panic of `idStr[:36]` on a shorter rest. -/
def handleJobByID (path : List UInt8) (method : String) : Option Route :=
  if path.length ≤ jobsPrefix.length then some (.reject 400 "Job ID required")
  else
    let idStr := path.drop jobsPrefix.length
    if idStr = ascii "claim" then some .claimJob
    else if idStr.length < 36 then none
    else some (match uuidParse (idStr.take 36) with
      | none => .reject 400 "Invalid job ID"
      | some jobID => routeSubPath (if idStr.length > 36 then idStr.drop 36 else []) method jobID)

/-! ## What the router does with every path -/

theorem jobsPrefix_length : jobsPrefix.length = 13 := rfl

theorem handleJobByID_uuid (raw sfx : List UInt8) (method : String) {jobID : List UInt8}
    (hl : raw.length = 36) (hp : uuidParse raw = some jobID) :
    handleJobByID (jobsPrefix ++ raw ++ sfx) method = some (routeSubPath sfx method jobID) := by
  have hlen : (raw ++ sfx).length = 36 + sfx.length := by simp [hl]
  have hc : raw ++ sfx ≠ ascii "claim" := fun h => by
    have h5 : (ascii "claim").length = 5 := rfl
    rw [← h, hlen] at h5
    omega
  have hsfx : (if (raw ++ sfx).length > 36 then (raw ++ sfx).drop 36 else []) = sfx := by
    split_ifs with h
    · exact List.drop_left' hl
    · exact (List.eq_nil_of_length_eq_zero (by omega)).symm
  unfold handleJobByID
  rw [List.append_assoc, List.drop_left, if_neg (by simp only [List.length_append]; omega), if_neg hc, if_neg (by omega),
    List.take_left' hl, hp, hsfx]

/-- The claim route for `claim`, the sub-path switch after a parsed id, or a 4xx. -/
theorem handleJobByID_answers (rest : List UInt8) (method : String) {r : Route}
    (h : handleJobByID (jobsPrefix ++ rest) method = some r) :
    (rest = ascii "claim" ∧ r = .claimJob) ∨
    (∃ raw sfx jobID, rest = raw ++ sfx ∧ raw.length = 36 ∧ uuidParse raw = some jobID ∧
      r = routeSubPath sfx method jobID) ∨
    ∃ code message, r = .reject code message ∧ 400 ≤ code ∧ code < 500 := by
  unfold handleJobByID at h
  dsimp only at h
  rw [List.drop_left] at h
  have hsfx : (if rest.length > 36 then rest.drop 36 else []) = rest.drop 36 := by
    split_ifs <;> first | rfl | exact (List.drop_eq_nil_of_le (by omega)).symm
  rw [hsfx] at h
  split_ifs at h with h1 h2
  · cases h
    exact .inr (.inr ⟨400, _, rfl, by decide, by decide⟩)
  · cases h
    exact .inl ⟨h2, rfl⟩
  · cases hp : uuidParse (rest.take 36) with
    | none =>
      rw [hp] at h
      cases h
      exact .inr (.inr ⟨400, _, rfl, by decide, by decide⟩)
    | some jobID =>
      rw [hp] at h
      cases h
      exact .inr (.inl ⟨_, _, jobID, (List.take_append_drop 36 rest).symm,
        List.length_take_of_le (by omega), hp, rfl⟩)

/-- The only rests that reach no answer: one to 35 bytes that are not `claim`. -/
theorem job_route_panics (path : List UInt8) (method : String) :
    handleJobByID path method = none ↔
      13 < path.length ∧ path.length < 49 ∧ path.drop 13 ≠ ascii "claim" := by
  unfold handleJobByID
  simp only [jobsPrefix_length, List.length_drop]
  by_cases h1 : path.length ≤ 13
  · simp only [h1, if_true, reduceCtorEq, false_iff]
    omega
  · by_cases h2 : path.drop 13 = ascii "claim"
    · simp [h1, h2]
    · by_cases h3 : path.length - 13 < 36
      · simp only [h1, h2, h3, if_true, if_false, true_iff]
        exact ⟨by omega, by omega, h2⟩
      · simp only [h1, h2, h3, if_false, reduceCtorEq, false_iff]
        omega

example : handleJobByID (jobsPrefix ++ ascii "abc") "GET" = none := by decide

end executr.server
