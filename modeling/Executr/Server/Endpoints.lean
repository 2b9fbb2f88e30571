-- The path of a request about one job, from the SDK's id text through the
-- `ServeMux` of `setupRoutes` to `handleJobByID` and the metrics label. Paths are
-- the bytes of `r.URL.Path`, with a base URL that has no path.
import Executr.Server.Routing
import Executr.Client.Retry
import Executr.Executor.Path

namespace executr.server

/-! ## The text of an id -/

/-- `uuid.UUID`, a `[16]byte`. -/
structure UUID where
  bytes : List UInt8
  length_bytes : bytes.length = 16

/-- `hextable` of encoding/hex. -/
def hextable (i : UInt8) : UInt8 := (ascii "0123456789abcdef").getD i.toNat 0

/-- `hex.Encode`: two digits a byte, the high half first. -/
def hexEncode (src : List UInt8) : List UInt8 :=
  src.flatMap fun v => [hextable (v >>> 4), hextable (v &&& 0x0f)]

/-- `UUID.String`: the groups `[:4]`, `[4:6]`, `[6:8]`, `[8:10]`, `[10:]` in hex, dashed. -/
def UUID.string (uuid : UUID) : List UInt8 :=
  hexEncode (uuid.bytes.take 4) ++ [45] ++ hexEncode ((uuid.bytes.drop 4).take 2) ++ [45] ++
    hexEncode ((uuid.bytes.drop 6).take 2) ++ [45] ++ hexEncode ((uuid.bytes.drop 8).take 2) ++ [45] ++
    hexEncode (uuid.bytes.drop 10)

/-- `string(buf[:])`: the Go string of those bytes. -/
def UUID.text (uuid : UUID) : String := ⟨uuid.string.map fun b => Char.ofNat b.toNat⟩

/-- `string(b)` for any bytes, a character a byte. -/
def bytesText (b : List UInt8) : String := ⟨b.map fun c => Char.ofNat c.toNat⟩

theorem toUInt8_ofNat_toNat (c : UInt8) : (Char.ofNat c.toNat).toUInt8 = c := by
  have h : c.toNat < 256 := c.toNat_lt_size
  have hv : (Char.ofNat c.toNat).val.toNat = c.toNat := by
    rw [Char.ofNat, dif_pos (Or.inl (by omega))]
    rfl
  apply UInt8.toNat.inj
  show (UInt8.ofNat (Char.ofNat c.toNat).val.toNat).toNat = c.toNat
  rw [hv, UInt8.toNat_ofNat_of_lt h]

@[simp] theorem ascii_bytesText (b : List UInt8) : ascii (bytesText b) = b := by
  simp only [ascii, bytesText, String.toList, List.map_map]
  exact (List.map_congr_left fun c _ => toUInt8_ofNat_toNat c).trans (List.map_id _)

@[simp] theorem ascii_append (a b : String) : ascii (a ++ b) = ascii a ++ ascii b :=
  List.map_append _ _ _

@[simp] theorem ascii_empty : ascii "" = [] := rfl

@[simp] theorem hexEncode_nil : hexEncode [] = [] := rfl

@[simp] theorem hexEncode_cons (v : UInt8) (src : List UInt8) :
    hexEncode (v :: src) = hextable (v >>> 4) :: hextable (v &&& 0x0f) :: hexEncode src := rfl

@[simp] theorem length_hexEncode (src : List UInt8) : (hexEncode src).length = 2 * src.length := by
  induction src with
  | nil => rfl
  | cons v src ih => simp only [hexEncode_cons, List.length_cons, ih]; omega

theorem hextable_mem (i : UInt8) : hextable i ∈ 0 :: ascii "0123456789abcdef" := by
  rw [hextable, List.getD_eq_getElem?_getD]
  cases h : (ascii "0123456789abcdef")[i.toNat]? with
  | none => exact List.mem_cons_self _ _
  | some b => exact List.mem_cons_of_mem _ (List.getElem?_mem h)

/-- A byte of `hex.Encode`'s output is no dash and no slash. -/
theorem hexEncode_byte {b : UInt8} {src : List UInt8} (h : b ∈ hexEncode src) : b ≠ 45 ∧ b ≠ 47 := by
  have digit : ∀ d ∈ 0 :: ascii "0123456789abcdef", d ≠ 45 ∧ d ≠ 47 := by
    decide
  obtain ⟨v, -, hv⟩ := List.mem_flatMap.mp h
  rcases List.mem_pair.mp hv with rfl | rfl <;> exact digit _ (hextable_mem _)

theorem toNat_shiftRight_four (v : UInt8) : (v >>> 4).toNat = v.toNat / 16 := by
  show (v.toBitVec >>> ((4 : UInt8) % 8).toBitVec).toNat = _
  rw [BitVec.ushiftRight_eq', BitVec.toNat_ushiftRight, Nat.shiftRight_eq_div_pow]
  rfl

theorem toNat_and_fifteen (v : UInt8) : (v &&& 0x0f).toNat = v.toNat % 16 := by
  simpa using Nat.and_pow_two_sub_one_eq_mod v.toNat 4

theorem nibbles_byte (v : UInt8) : (v >>> 4) * 16 + (v &&& 0x0f) = v := by
  apply UInt8.toNat.inj
  have h := v.toNat_lt_size
  show ((v >>> 4).toBitVec * 16 + (v &&& 0x0f).toBitVec).toNat = v.toNat
  rw [BitVec.toNat_add, BitVec.toNat_mul]
  change ((v >>> 4).toNat * 16 % 256 + (v &&& 0x0f).toNat) % 256 = v.toNat
  rw [toNat_shiftRight_four, toNat_and_fifteen]
  simp only [UInt8.size] at h
  omega

theorem xvalue_hextable {n : UInt8} (h : n.toNat < 16) : xvalue (hextable n) = some n := by
  obtain ⟨k, rfl⟩ : ∃ k : Fin 16, UInt8.ofNat k = n :=
    ⟨⟨n.toNat, h⟩, UInt8.toNat.inj (UInt8.toNat_ofNat_of_lt (by simp only [UInt8.size]; omega))⟩
  revert k
  decide

/-- `xtob` of the two digits `hex.Encode` writes for a byte is that byte. -/
theorem xtob_hex (v : UInt8) : xtob (hextable (v >>> 4)) (hextable (v &&& 0x0f)) = some v := by
  have h := v.toNat_lt_size
  simp only [UInt8.size] at h
  rw [xtob, xvalue_hextable (by rw [toNat_shiftRight_four]; omega),
    xvalue_hextable (by rw [toNat_and_fifteen]; omega)]
  exact congrArg some (nibbles_byte v)

theorem getElem?_after (pre l : List UInt8) (i : Nat) : (pre ++ l)[pre.length + i]? = l[i]? := by
  rw [List.getElem?_append_right (by omega), Nat.add_sub_cancel_left]

theorem mapM_pairs_hexEncode {s rest : List UInt8} :
    ∀ (src pre : List UInt8), s = pre ++ hexEncode src ++ rest →
      ((List.range' pre.length src.length 2).mapM fun x => do xtob (← s[x]?) (← s[x + 1]?)) = some src
  | [], _, _ => rfl
  | v :: src, pre, hs => by
    have ih := @mapM_pairs_hexEncode s rest src (pre ++ [hextable (v >>> 4), hextable (v &&& 0x0f)])
      (by simp [hs])
    have hk : (pre ++ [hextable (v >>> 4), hextable (v &&& 0x0f)]).length = pre.length + 2 := by simp
    have hhi : s[pre.length]? = some (hextable (v >>> 4)) := by
      rw [hs, List.append_assoc, ← Nat.add_zero pre.length, getElem?_after, hexEncode_cons]
      exact List.getElem?_cons_zero
    have hlo : s[pre.length + 1]? = some (hextable (v &&& 0x0f)) := by
      rw [hs, List.append_assoc, getElem?_after, hexEncode_cons, List.cons_append, List.getElem?_cons_succ]
      exact List.getElem?_cons_zero
    rw [hk] at ih
    rw [List.length_cons, List.range'_succ, List.mapM_cons, hhi, hlo, ih]
    simp only [Option.bind_eq_bind, Option.some_bind, xtob_hex]
    rfl

/-- `uuidParse` reads the five hex groups of the 36-byte form back. -/
theorem uuidParse_groups {g1 g2 g3 g4 g5 : List UInt8} (h1 : g1.length = 4) (h2 : g2.length = 2)
    (h3 : g3.length = 2) (h4 : g4.length = 2) (h5 : g5.length = 6) :
    uuidParse (hexEncode g1 ++ [45] ++ hexEncode g2 ++ [45] ++ hexEncode g3 ++ [45] ++ hexEncode g4 ++ [45] ++
      hexEncode g5) = some (g1 ++ g2 ++ g3 ++ g4 ++ g5) := by
  generalize hs : hexEncode g1 ++ [45] ++ hexEncode g2 ++ [45] ++ hexEncode g3 ++ [45] ++ hexEncode g4 ++ [45] ++
      hexEncode g5 = s
  have group : ∀ pre src rest k, s = pre ++ hexEncode src ++ rest → pre.length = k →
      ((List.range' k src.length 2).mapM fun x => do xtob (← s[x]?) (← s[x + 1]?)) = some src := by
    rintro pre src rest _ h rfl
    exact mapM_pairs_hexEncode src pre h
  have hp : uuidPairs = List.range' 0 g1.length 2 ++ List.range' 9 g2.length 2 ++ List.range' 14 g3.length 2 ++
      List.range' 19 g4.length 2 ++ List.range' 24 g5.length 2 := by
    rw [h1, h2, h3, h4, h5]; rfl
  rw [uuidParse, hp, if_neg (by simp [← hs, -List.getElem?_eq_getElem, List.getElem?_append_right,
    List.getElem?_append_left, List.getElem?_cons_zero, h1, h2, h3, h4]), List.mapM_append, List.mapM_append,
    List.mapM_append, List.mapM_append,
    group [] g1 (45 :: (hexEncode g2 ++ 45 :: (hexEncode g3 ++ 45 :: (hexEncode g4 ++ 45 :: hexEncode g5)))) 0
      (by simp [← hs]) rfl,
    group (hexEncode g1 ++ [45]) g2 (45 :: (hexEncode g3 ++ 45 :: (hexEncode g4 ++ 45 :: hexEncode g5))) 9
      (by simp [← hs]) (by simp [h1]),
    group (hexEncode g1 ++ 45 :: hexEncode g2 ++ [45]) g3 (45 :: (hexEncode g4 ++ 45 :: hexEncode g5)) 14
      (by simp [← hs]) (by simp [h1, h2]),
    group (hexEncode g1 ++ 45 :: hexEncode g2 ++ 45 :: hexEncode g3 ++ [45]) g4 (45 :: hexEncode g5) 19
      (by simp [← hs]) (by simp [h1, h2, h3]),
    group (hexEncode g1 ++ 45 :: hexEncode g2 ++ 45 :: hexEncode g3 ++ 45 :: hexEncode g4 ++ [45]) g5 [] 24
      (by simp [← hs]) (by simp [h1, h2, h3, h4])]
  rfl

namespace UUID

variable (u : UUID)

/-- `uuid.Parse` reads the text `String` gives back as the id it came from. -/
theorem uuidParse_string : uuidParse u.string = some u.bytes := by
  have h := u.length_bytes
  rw [UUID.string, uuidParse_groups (by simp [h]) (by simp [h]) (by simp [h]) (by simp [h]) (by simp [h])]
  have step : ∀ n k m, n + k = m → (u.bytes.drop n).take k ++ u.bytes.drop m = u.bytes.drop n := by
    rintro n k _ rfl
    rw [← List.drop_drop, List.take_append_drop]
  simp only [List.append_assoc]
  rw [step 8 2 10 rfl, step 6 2 8 rfl, step 4 2 6 rfl, List.take_append_drop]

theorem length_string : u.string.length = 36 := by
  have h := u.length_bytes
  simp [UUID.string, h]

theorem mem_string {b : UInt8} (hb : b ∈ u.string) : b = 45 ∨ ∃ src, b ∈ hexEncode src := by
  simp only [UUID.string, List.mem_append, List.mem_singleton] at hb
  rcases hb with ((((((((h | h) | h) | h) | h) | h) | h) | h) | h) <;>
    first | exact .inl h | exact .inr ⟨_, h⟩

/-- The text has its four dashes and no slash. -/
theorem string_bytes : u.string.count 45 = 4 ∧ 47 ∉ u.string := by
  have hc : ∀ src, (hexEncode src).count 45 = 0 := fun _ =>
    List.count_eq_zero_of_not_mem fun h => (hexEncode_byte h).1 rfl
  refine ⟨by simp [UUID.string, hc], fun h => ?_⟩
  rcases u.mem_string h with h | ⟨_, h⟩
  · cases h
  · exact (hexEncode_byte h).2 rfl

theorem ascii_text : ascii u.text = u.string := ascii_bytesText u.string

/-- The text is a plain path element. -/
theorem isPathElem_text : executor.isPathElem u.text = true := by
  have hl : u.text.length = 36 := by simp [String.length, UUID.text, u.length_string]
  refine executor.isPathElem_iff.mpr ⟨fun e => ?_, fun e => ?_, fun e => ?_, fun h => ?_⟩
  iterate 3 rw [e] at hl; exact absurd hl (by decide)
  obtain ⟨b, hb, e⟩ := List.mem_map.mp h
  have : b = 47 := by rw [← toUInt8_ofNat_toNat b, e]; rfl
  exact u.string_bytes.2 (this ▸ hb)

end UUID

/-! ## The mux -/

/-- The handlers `setupRoutes` registers. -/
inductive Handler
  | metrics | health | jobs | jobByID | claimJob | bulkJobs | bulkCancel | adminStats | adminExecutors
deriving DecidableEq, Repr

/-- `setupRoutes`: each pattern with its handler, in the order they are registered. -/
def setupRoutes : List (String × Handler) :=
  [("/api/v1/metrics", .metrics), ("/api/v1/health", .health), ("/api/v1/jobs", .jobs),
    ("/api/v1/jobs/", .jobByID), ("/api/v1/jobs/claim", .claimJob), ("/api/v1/jobs/bulk", .bulkJobs),
    ("/api/v1/jobs/bulk/cancel", .bulkCancel), ("/api/v1/admin/stats", .adminStats),
    ("/api/v1/admin/executors", .adminExecutors)]

/-- `appendSorted` of `ServeMux`: before the first entry with a shorter pattern. -/
def appendSorted (es : List (String × Handler)) (e : String × Handler) : List (String × Handler) :=
  let i := es.findIdx fun x => x.1.length < e.1.length
  es.take i ++ e :: es.drop i

/-- `mux.es`: the patterns that end in `/`, longest first. -/
def muxEntries (mux : List (String × Handler)) : List (String × Handler) :=
  mux.foldl (fun es e => if (ascii e.1).getLast? = some 47 then appendSorted es e else es) []

/-- `ServeMux.match` on a clean path: the equal pattern, else the longest `/` pattern it
starts with (Go 1.24's most specific pattern, as none has a method, host or wildcard). -/
def serveMux (mux : List (String × Handler)) (path : List UInt8) : Option Handler :=
  match mux.find? (fun e => ascii e.1 = path) with
  | some e => some e.2
  | none => ((muxEntries mux).find? fun e => (ascii e.1).isPrefixOf path).map (·.2)

theorem muxEntries_setupRoutes : muxEntries setupRoutes = [("/api/v1/jobs/", .jobByID)] := by decide

theorem exact_rests (rest : List UInt8) (h : rest ∈ [ascii "claim", ascii "bulk", ascii "bulk/cancel"]) :
    ∃ e ∈ setupRoutes, ascii e.1 = jobsPrefix ++ rest := by
  revert rest
  decide

theorem serveMux_jobByID {path : List UInt8} :
    serveMux setupRoutes path = some .jobByID ↔
      ∃ rest, path = jobsPrefix ++ rest ∧ rest ∉ [ascii "claim", ascii "bulk", ascii "bulk/cancel"] := by
  have named : ∀ e ∈ setupRoutes, e.2 = .jobByID → ascii e.1 = jobsPrefix := by decide
  have under : ∀ e ∈ setupRoutes, jobsPrefix.isPrefixOf (ascii e.1) →
      e.2 = .jobByID ∨ (ascii e.1).drop 13 ∈ [ascii "claim", ascii "bulk", ascii "bulk/cancel"] := by decide
  have subtree : ∀ path, jobsPrefix.isPrefixOf path = true →
      (([("/api/v1/jobs/", Handler.jobByID)].find? fun e => (ascii e.1).isPrefixOf path).map (·.2)) =
        some .jobByID := fun path hp => by
    simp only [List.find?_singleton, show (ascii "/api/v1/jobs/").isPrefixOf path = true from hp, if_true,
      Option.map_some']
  unfold serveMux
  rw [muxEntries_setupRoutes]
  constructor
  · intro h
    split at h
    · next e he =>
      have hp : ascii e.1 = path := by simpa using List.find?_some he
      rw [← hp, named e (List.mem_of_find?_eq_some he) (Option.some.inj h)]
      exact ⟨[], (List.append_nil _).symm, by decide⟩
    · next he =>
      by_cases hp : jobsPrefix.isPrefixOf path = true
      · obtain ⟨rest, rfl⟩ := List.isPrefixOf_iff_prefix.mp hp
        refine ⟨rest, rfl, fun hr => ?_⟩
        obtain ⟨e, hm, heq⟩ := exact_rests rest hr
        exact List.find?_eq_none.mp he e hm (decide_eq_true heq)
      · simp only [List.find?_singleton, show (ascii "/api/v1/jobs/").isPrefixOf path = false from
          Bool.eq_false_iff.mpr hp] at h
        cases h
  · rintro ⟨rest, rfl, hr⟩
    split
    · next e he =>
      have hp : ascii e.1 = jobsPrefix ++ rest := by simpa using List.find?_some he
      rcases under e (List.mem_of_find?_eq_some he) (List.isPrefixOf_iff_prefix.mpr ⟨rest, hp.symm⟩) with h | h
      · rw [h]
      · rw [hp, List.drop_left' jobsPrefix_length] at h
        exact absurd h hr
    · exact subtree _ (List.isPrefixOf_iff_prefix.mpr (List.prefix_append jobsPrefix rest))

/-- No answer of the sub-path switch is the claim route. -/
theorem routeSubPath_ne_claimJob (subPath : List UInt8) (method : String) (jobID : List UInt8) :
    routeSubPath subPath method jobID ≠ .claimJob := by
  unfold routeSubPath
  simp only [ne_eq, apply_ite (fun r : Route => r = .claimJob), reduceCtorEq, ite_self, not_false_eq_true]

/-! ## Cleaning and redirects -/

/-- `cleanPath` of net/http: a `/` put before a path that lacks one, `path.Clean`,
and the trailing `/` put back. -/
def cleanURLPath (p : List UInt8) : List UInt8 :=
  if p = [] then [47]
  else
    let p := if p.head? = some 47 then p else 47 :: p
    let np := ascii (executor.cleanPath (bytesText p))
    if p.getLast? = some 47 ∧ np ≠ [47] then np ++ [47] else np

/-- The trailing-slash test of `matchOrRedirect`. -/
def shouldRedirect (mux : List (String × Handler)) (path : List UInt8) : Bool :=
  !(mux.any fun e => ascii e.1 = path) && (mux.any fun e => ascii e.1 = path ++ [47]) &&
    path.getLast? != some 47

/-- What `ServeMux.ServeHTTP` does with a request before a handler of ours runs. -/
inductive MuxAnswer
  | badRequest
  | redirect (location : List UInt8)
  | handler (h : Handler)
  | notFound
deriving DecidableEq, Repr

/-- `ServeMux.ServeHTTP` of Go 1.24: `*` gets 400; a path but CONNECT's is cleaned and
a changed one gets 301. Paths are taken with no `%` escapes. -/
def muxServe (mux : List (String × Handler)) (method : String) (path : List UInt8) : MuxAnswer :=
  if path = ascii "*" then .badRequest
  else
    let p := if method = "CONNECT" then path else cleanURLPath path
    if shouldRedirect mux p then .redirect (cleanURLPath path ++ [47])
    else if p ≠ path then .redirect p
    else ((serveMux mux p).map .handler).getD .notFound

/-- The one `/` pattern of `setupRoutes` has its bare form registered too. -/
theorem shouldRedirect_setupRoutes (p : List UInt8) : shouldRedirect setupRoutes p = false := by
  have bare : ∀ e ∈ setupRoutes, ∀ q : List UInt8, ascii e.1 = q ++ [47] → ∃ e' ∈ setupRoutes, ascii e'.1 = q :=
    fun e he q hq => by
      obtain ⟨e', he', h'⟩ : ∃ e' ∈ setupRoutes, ascii e'.1 ++ [47] = ascii e.1 := by
        have ends : ∀ e ∈ setupRoutes, (ascii e.1).getLast? = some 47 →
            ∃ e' ∈ setupRoutes, ascii e'.1 ++ [47] = ascii e.1 := by decide
        exact ends e he (by rw [hq, List.getLast?_append_of_ne_nil _ (List.cons_ne_nil _ _)]; rfl)
      exact ⟨e', he', List.append_cancel_right (h'.trans hq)⟩
  unfold shouldRedirect
  cases h : setupRoutes.any fun e => ascii e.1 = p ++ [47]
  · simp
  · obtain ⟨e, he, hp⟩ := List.any_eq_true.mp h
    obtain ⟨e', he', h'⟩ := bare e he p (of_decide_eq_true hp)
    rw [List.any_eq_true.mpr ⟨e', he', decide_eq_true h'⟩]
    rfl

theorem muxServe_setupRoutes {path : List UInt8} (method : String) (h : path ≠ ascii "*") :
    muxServe setupRoutes method path =
      if method = "CONNECT" ∨ cleanURLPath path = path then ((serveMux setupRoutes path).map .handler).getD .notFound
      else .redirect (cleanURLPath path) := by
  unfold muxServe
  dsimp only
  rw [if_neg h, shouldRedirect_setupRoutes, if_neg Bool.false_ne_true]
  by_cases hc : method = "CONNECT"
  · simp [hc]
  · by_cases hp : cleanURLPath path = path <;> simp [hc, hp]

theorem jobsPrefix_ne_star (rest : List UInt8) : jobsPrefix ++ rest ≠ ascii "*" := fun h => by
  have := congrArg List.length h
  rw [List.length_append, jobsPrefix_length, show (ascii "*").length = 1 from rfl] at this
  omega

theorem muxServe_jobByID {method : String} {path : List UInt8} :
    muxServe setupRoutes method path = .handler .jobByID ↔
      (method = "CONNECT" ∨ cleanURLPath path = path) ∧
        ∃ rest, path = jobsPrefix ++ rest ∧ rest ∉ [ascii "claim", ascii "bulk", ascii "bulk/cancel"] := by
  by_cases hs : path = ascii "*"
  · subst hs
    simp only [muxServe, if_true, reduceCtorEq, false_iff, not_and]
    rintro - ⟨rest, h, -⟩
    exact jobsPrefix_ne_star rest h.symm
  rw [muxServe_setupRoutes method hs, ← serveMux_jobByID]
  split_ifs with hc
  · simp only [hc, true_and]
    cases serveMux setupRoutes path <;> simp
  · simp [hc]

/-- `handleJobByID` gets exactly the clean paths under `/api/v1/jobs/` but `claim`, `bulk`
and `bulk/cancel`, never takes its `claim` branch, and an unclean path gets 301. -/
theorem job_by_id_paths (method : String) (path : List UInt8) :
    (muxServe setupRoutes method path = .handler .jobByID ↔
      (method = "CONNECT" ∨ cleanURLPath path = path) ∧
        ∃ rest, path = jobsPrefix ++ rest ∧ rest ∉ [ascii "claim", ascii "bulk", ascii "bulk/cancel"]) ∧
    (muxServe setupRoutes method path = .handler .jobByID → handleJobByID path method ≠ some .claimJob) ∧
    (method ≠ "CONNECT" → path ≠ ascii "*" → cleanURLPath path ≠ path →
      muxServe setupRoutes method path = .redirect (cleanURLPath path)) := by
  refine ⟨muxServe_jobByID, fun h hc => ?_, fun hm hs hp => ?_⟩
  · obtain ⟨-, rest, rfl, hr⟩ := muxServe_jobByID.mp h
    rcases handleJobByID_answers rest method hc with ⟨rfl, -⟩ | ⟨_, _, _, -, -, -, he⟩ | ⟨_, _, he, -⟩
    · exact hr (List.mem_cons_self _ _)
    · exact routeSubPath_ne_claimJob _ _ _ he.symm
    · exact Route.noConfusion he
  · rw [muxServe_setupRoutes method hs, if_neg (by tauto)]

end executr.server

namespace executr.metrics

open executr.server (ascii)

/-- `isID` on bytes, which decide as its runes do: a digit rune is one ASCII byte. -/
def isID (s : List UInt8) : Bool :=
  if s.length = 0 then false
  else if s.length = 36 ∧ s.count 45 = 4 then true
  else s.all (fun c => !(c < 48 || c > 57)) && decide (s.length > 0)

/-- `normalizeEndpoint`: each `/` part that `isID` accepts replaced by `{id}`. -/
def normalizeEndpoint (path : List UInt8) : List UInt8 :=
  [47].intercalate ((path.splitOn 47).map fun part => if isID part then ascii "{id}" else part)

theorem not_mem_of_mem_splitOn (x : UInt8) : ∀ (xs l : List UInt8), l ∈ xs.splitOn x → x ∉ l
  | [], l, h => by simp_all
  | a :: t, l, h => by
    have ih := not_mem_of_mem_splitOn x t
    unfold List.splitOn at h ih
    rw [List.splitOnP_cons] at h
    split_ifs at h with ha
    · rcases List.mem_cons.mp h with rfl | h
      · exact List.not_mem_nil x
      · exact ih l h
    · obtain ⟨hd, tl, heq⟩ := List.exists_cons_of_ne_nil (List.splitOnP_ne_nil (· == x) t)
      rw [heq, List.modifyHead_cons] at h
      rcases List.mem_cons.mp h with rfl | h
      · rintro (_ | ⟨_, hx⟩)
        · exact ha (beq_self_eq_true _)
        · exact ih hd (heq ▸ List.mem_cons_self hd tl) hx
      · exact ih l (heq ▸ List.mem_cons_of_mem hd h)

theorem splitOn_append {xs : List UInt8} (ys : List UInt8) (h : ∀ b ∈ xs, ¬(b == 47) = true) :
    (xs ++ ys).splitOn 47 = (ys.splitOn 47).modifyHead (xs ++ ·) := by
  induction xs with
  | nil =>
    rw [List.nil_append]
    cases ys.splitOn 47 <;> rfl
  | cons a xs ih =>
    unfold List.splitOn at ih ⊢
    rw [List.cons_append, List.splitOnP_cons, if_neg (h a (List.mem_cons_self a xs)),
      ih fun b hb => h b (List.mem_cons_of_mem a hb), List.modifyHead_modifyHead]
    rfl

theorem splitOn_normalizeEndpoint (path : List UInt8) :
    (normalizeEndpoint path).splitOn 47 =
      (path.splitOn 47).map fun part => if isID part then ascii "{id}" else part := by
  apply List.splitOn_intercalate
  · intro l hl
    obtain ⟨part, hpart, rfl⟩ := List.mem_map.mp hl
    split_ifs
    · decide
    · exact not_mem_of_mem_splitOn 47 path part hpart
  · simpa using List.splitOnP_ne_nil _ path

/-- The label of a label is itself, and a path is its own label iff no part is an id. -/
theorem normalize_endpoint_projection (path : List UInt8) :
    normalizeEndpoint (normalizeEndpoint path) = normalizeEndpoint path ∧
      (normalizeEndpoint path = path ↔ ∀ part ∈ path.splitOn 47, isID part = false) := by
  have hid : isID (ascii "{id}") = false := by decide
  have hf : ∀ part : List UInt8, (if isID (if isID part then ascii "{id}" else part) then ascii "{id}"
      else if isID part then ascii "{id}" else part) = if isID part then ascii "{id}" else part := by
    intro part
    by_cases h : isID part <;> simp [h, hid]
  refine ⟨?_, fun h => ?_, fun h => ?_⟩
  · calc normalizeEndpoint (normalizeEndpoint path)
        = [47].intercalate (((normalizeEndpoint path).splitOn 47).map
            fun part => if isID part then ascii "{id}" else part) := rfl
      _ = normalizeEndpoint path := by
        rw [splitOn_normalizeEndpoint, List.map_map]
        exact congrArg _ (List.map_congr_left fun part _ => hf part)
  · have hmap := splitOn_normalizeEndpoint path
    rw [h] at hmap
    have hfix := List.map_inj_left.mp (hmap.symm.trans (List.map_id _).symm)
    intro part hp
    cases hb : isID part
    · rfl
    · have he : ascii "{id}" = part := by simpa [hb] using hfix part hp
      rw [← he, hid] at hb
      cases hb
  · calc normalizeEndpoint path = [47].intercalate (path.splitOn 47) := by
          rw [normalizeEndpoint, List.map_congr_left fun part hp => by rw [h part hp, if_neg Bool.false_ne_true],
            List.map_id']
      _ = path := List.intercalate_splitOn path 47

example : normalizeEndpoint (ascii "/api/v1/jobs/42/complete") = ascii "/api/v1/jobs/{id}/complete" := rfl

end executr.metrics

namespace executr.client

open executr.server
open executr.metrics (normalizeEndpoint isID)

/-! ## The calls of the SDK on one job -/

/-- The calls of `HTTPClient` that name a job in their path. -/
inductive JobCall
  | getJob | cancelJob | heartbeat | completeJob | failJob
deriving DecidableEq, Repr

/-- The request each call builds in `client.go`. -/
def JobCall.request : JobCall → String → Request
  | .getJob, jobID => ⟨"GET", "/api/v1/jobs/" ++ jobID, 200⟩
  | .cancelJob, jobID => ⟨"DELETE", "/api/v1/jobs/" ++ jobID, 204⟩
  | .heartbeat, jobID => ⟨"PUT", "/api/v1/jobs/" ++ jobID ++ "/heartbeat", 204⟩
  | .completeJob, jobID => ⟨"PUT", "/api/v1/jobs/" ++ jobID ++ "/complete", 204⟩
  | .failJob, jobID => ⟨"PUT", "/api/v1/jobs/" ++ jobID ++ "/fail", 204⟩

/-- The call, as the client model runs it. -/
def JobCall.run (c : HTTPClient) : JobCall → String → World → List Event × CallResult
  | .getJob => c.getJob
  | .cancelJob => c.cancelJob
  | .heartbeat => c.heartbeat
  | .completeJob => c.completeJob
  | .failJob => c.failJob

/-- The route of `handleJobByID` each call is meant for. -/
def JobCall.route : JobCall → List UInt8 → Route
  | .getJob => .getJob
  | .cancelJob => .cancelJob
  | .heartbeat => .heartbeat
  | .completeJob => .completeJob
  | .failJob => .failJob

/-- What the path holds after the id. -/
def JobCall.suffix : JobCall → String
  | .getJob | .cancelJob => ""
  | .heartbeat => "/heartbeat"
  | .completeJob => "/complete"
  | .failJob => "/fail"

theorem JobCall.path_eq (call : JobCall) (u : UUID) :
    ascii (call.request u.text).path = jobsPrefix ++ u.string ++ ascii call.suffix := by
  cases call <;> simp [JobCall.request, JobCall.suffix, UUID.ascii_text, jobsPrefix]

theorem cleanURLPath_of_clean {p : List UInt8} (hh : p.head? = some 47) (hl : p.getLast? ≠ some 47)
    (hc : executor.cleanPath (bytesText p) = bytesText p) : cleanURLPath p = p := by
  have hne : p ≠ [] := fun e => by simp [e] at hh
  simp only [cleanURLPath, if_neg hne, hh, if_true, hc, ascii_bytesText, hl, false_and, if_false]

theorem cleanURLPath_job (u : UUID) (sfx : String) (es : List String) (hes : ∀ e ∈ es, executor.isPathElem e = true)
    (hsfx : bytesText (ascii sfx) = sfx)
    (hjoin : "/api/v1/jobs/" ++ u.text ++ sfx =
      ⟨'/' :: ['/'].intercalate ((["api", "v1", "jobs", u.text] ++ es).map String.data)⟩)
    (hlast : (u.string ++ ascii sfx).getLast? ≠ some 47) :
    cleanURLPath (jobsPrefix ++ u.string ++ ascii sfx) = jobsPrefix ++ u.string ++ ascii sfx := by
  have hb : bytesText (jobsPrefix ++ u.string ++ ascii sfx) = "/api/v1/jobs/" ++ u.text ++ sfx := by
    have h := congrArg String.data hsfx
    apply String.ext
    simp only [bytesText, List.map_append, String.data_append] at h ⊢
    rw [h]
    rfl
  refine cleanURLPath_of_clean rfl ?_ ?_
  · rwa [List.append_assoc, List.getLast?_append_of_ne_nil _ (by simp [← List.length_pos, u.length_string])]
  · rw [hb, hjoin, executor.cleanPath_plain _ _ (by simp)]
    simp only [List.mem_append, List.mem_cons, List.not_mem_nil, or_false]
    rintro e ((rfl | rfl | rfl | rfl) | he)
    iterate 3 rfl
    · exact u.isPathElem_text
    · exact hes e he

/-- The paths the SDK builds for a job are clean. -/
theorem JobCall.path_clean (call : JobCall) (u : UUID) :
    cleanURLPath (ascii (call.request u.text).path) = ascii (call.request u.text).path := by
  have bare : (u.string ++ ascii "").getLast? ≠ some 47 := by
    rw [ascii_empty, List.append_nil]
    exact fun h => u.string_bytes.2 (List.mem_of_getLast?_eq_some h)
  have named : ∀ sfx e, sfx = "/" ++ e → executor.isPathElem e = true → bytesText (ascii sfx) = sfx →
      ascii sfx ≠ [] → (ascii sfx).getLast? ≠ some 47 →
      cleanURLPath (jobsPrefix ++ u.string ++ ascii sfx) = jobsPrefix ++ u.string ++ ascii sfx := by
    rintro sfx e rfl he hb hn hl
    refine cleanURLPath_job u _ [e] (by simpa using he) hb (String.ext (by simp [List.intercalate])) ?_
    rwa [List.getLast?_append_of_ne_nil _ hn]
  rw [JobCall.path_eq]
  cases call <;> simp only [JobCall.suffix]
  iterate 2 exact cleanURLPath_job u "" [] (by simp) rfl (String.ext (by simp [List.intercalate])) bare
  all_goals exact named _ _ rfl rfl rfl (by decide) (by decide)

theorem splitOn_jobsPrefix (rest : List UInt8) :
    (jobsPrefix ++ rest).splitOn 47 = [] :: ascii "api" :: ascii "v1" :: ascii "jobs" :: rest.splitOn 47 := rfl

/-- Every SDK call on a job is dispatched with no redirect to `handleJobByID`, which takes
its route with the job's id, and is counted under one label for all ids. -/
theorem job_calls_reach_route (call : JobCall) (u : UUID) :
    (∀ c w, call.run c u.text w = c.send (call.request u.text) w) ∧
    muxServe setupRoutes (call.request u.text).method (ascii (call.request u.text).path) = .handler .jobByID ∧
    handleJobByID (ascii (call.request u.text).path) (call.request u.text).method = some (call.route u.bytes) ∧
    normalizeEndpoint (ascii (call.request u.text).path) = ascii ("/api/v1/jobs/{id}" ++ call.suffix) := by
  obtain ⟨hc, hs⟩ := u.string_bytes
  have hid : isID u.string = true := by simp [isID, u.length_string, hc]
  have hsep : ∀ b ∈ u.string, ¬(b == 47) = true := fun b hb h => hs (beq_iff_eq.mp h ▸ hb)
  refine ⟨fun c w => by cases call <;> rfl, ?_, ?_, ?_⟩ <;> rw [JobCall.path_eq]
  · refine muxServe_jobByID.mpr ⟨.inr (JobCall.path_eq call u ▸ JobCall.path_clean call u), _,
      List.append_assoc _ _ _, fun hr => ?_⟩
    have hl : 36 ≤ (u.string ++ ascii call.suffix).length := by simp [u.length_string]
    simp only [List.mem_cons, List.not_mem_nil, or_false] at hr
    rcases hr with h | h | h <;> rw [h] at hl <;> exact absurd hl (by decide)
  · rw [handleJobByID_uuid _ _ _ u.length_string u.uuidParse_string]
    cases call <;> rfl
  · have key : ∀ rest, (ascii call.suffix).splitOn 47 = [] :: rest →
        normalizeEndpoint (jobsPrefix ++ u.string ++ ascii call.suffix) = [47].intercalate
          ([] :: ascii "api" :: ascii "v1" :: ascii "jobs" :: ascii "{id}" ::
            rest.map fun part => if isID part then ascii "{id}" else part) := by
      intro rest hr
      rw [normalizeEndpoint, List.append_assoc, splitOn_jobsPrefix, executr.metrics.splitOn_append _ hsep, hr,
        List.modifyHead_cons, List.append_nil]
      simp only [List.map_cons, hid, if_true]
      rfl
    cases call <;> exact (key _ rfl).trans rfl

end executr.client
