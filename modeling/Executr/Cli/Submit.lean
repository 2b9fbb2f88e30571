-- `executr submit` (main.go `submitJob`) up to its post, and the round trip of
-- its `--env` flags through the runner's `key=value` texts (runner.go `Execute`).
import Executr.Go
import Executr.Executor.Report

namespace executr.cli

open executr.store (Priority)
open executr.executor (jobEnv jobEnv_eq)

/-! ## The flags -/

/-- `strings.SplitN(s, sep, 2)` for a one-character separator. -/
def splitN2 (s : String) (sep : Char) : List String :=
  match s.data.span (· ≠ sep) with
  | (before, _ :: after) => [⟨before⟩, ⟨after⟩]
  | (_, []) => [s]

/-- The loop of `submitJob` over the `--env` flags into `envVars`. -/
def parseEnv (envVars : List (String × String)) : List String → Except String (List (String × String))
  | [] => .ok envVars
  | env :: rest =>
    match splitN2 env '=' with
    | [key, value] => parseEnv (assign envVars key value) rest
    | _ => .error ("invalid environment variable format: " ++ env ++ " (expected KEY=VALUE)")

/-- The flags `submitJob` reads. -/
structure SubmitFlags where
  binaryUrl : String
  binarySha256 : String
  args : List String
  env : List String
  jobType : String
  priority : String

/-- The `models.JobSubmission` the command posts. -/
structure Submission where
  jobType : String
  binaryUrl : String
  binarySha256 : String
  arguments : List String
  envVariables : List (String × String)
  priority : Priority

/-- The `switch priority` of `submitJob`. -/
def cliPriority : String → Option Priority
  | "foreground" => some .foreground
  | "background" => some .background
  | "best_effort" => some .bestEffort
  | _ => none

/-- `submitJob` up to `cl.SubmitJob`, with what `calculateSHA256FromURL` gave. -/
def submitJob (flags : SubmitFlags) (calculated : Except String String) : Except String Submission := do
  if ' ' ∈ flags.jobType.data then throw "job type cannot contain spaces"
  let some p := cliPriority flags.priority
    | throw ("invalid priority: " ++ flags.priority ++ " (must be foreground/background/best_effort)")
  let envVars ← parseEnv [] flags.env
  let sha ← if flags.binarySha256 = "" then
      match calculated with
      | .ok h => pure h
      | .error e => throw ("failed to calculate SHA256: " ++ e)
    else pure flags.binarySha256
  pure ⟨flags.jobType, flags.binaryUrl, sha, flags.args, envVars, p⟩

/-! ## Splitting at the first `=` -/

theorem splitN2_cases (s : String) (sep : Char) :
    (splitN2 s sep = [s] ∧ sep ∉ s.data) ∨
      ∃ before after, splitN2 s sep = [before, after] ∧ sep ∉ before.data ∧
        s.data = before.data ++ sep :: after.data := by
  unfold splitN2
  rw [List.span_eq_take_drop]
  have hs := List.takeWhile_append_dropWhile (fun c => decide (c ≠ sep)) s.data
  rcases hd : s.data.dropWhile (fun c => decide (c ≠ sep)) with _ | ⟨c, after⟩
  · refine .inl ⟨rfl, fun hm => ?_⟩
    simpa using List.dropWhile_eq_nil_iff.mp hd sep hm
  · have hc : c = sep := by
      have h := List.head?_dropWhile_not (fun c => decide (c ≠ sep)) s.data
      rw [hd] at h
      simpa using h
    subst hc
    rw [hd] at hs
    exact .inr ⟨_, ⟨after⟩, rfl, fun hm => by simpa using List.mem_takeWhile_imp hm, hs.symm⟩

theorem splitN2_join (key value : String) (h : '=' ∉ key.data) :
    splitN2 (key ++ "=" ++ value) '=' = [key, value] := by
  have hp : ∀ c ∈ key.data, decide (c ≠ '=') = true := fun c hc =>
    decide_eq_true fun e => h (e ▸ hc)
  have heq : ("=" : String).data = ['='] := rfl
  simp only [splitN2, String.data_append, heq, List.span_eq_take_drop, List.append_assoc,
    List.takeWhile_append_of_pos hp, List.dropWhile_append_of_pos hp, List.singleton_append]
  simp

/-! ## The `--env` loop -/

/-- A flag read as `KEY=VALUE`: none when it has no `=`. -/
def flagEntry (f : String) : Option (String × String) :=
  match splitN2 f '=' with
  | [key, value] => some (key, value)
  | _ => none

/-- The value the flags give a key: that of the last flag with that key. -/
def flagValue (flags : List String) (key : String) : Option String :=
  mapGet (flags.filterMap flagEntry).reverse key

theorem flagEntry_none_iff (f : String) : flagEntry f = none ↔ '=' ∉ f.data := by
  rcases splitN2_cases f '=' with ⟨h, hn⟩ | ⟨k, v, h, -, hf⟩
  · simp [flagEntry, h, hn]
  · simp [flagEntry, h, hf]

theorem splitN2_of_flagEntry {f : String} {e : String × String} (h : flagEntry f = some e) :
    splitN2 f '=' = [e.1, e.2] ∧ '=' ∉ e.1.data := by
  rcases splitN2_cases f '=' with ⟨hs, -⟩ | ⟨k, v, hs, hk, -⟩
  · simp [flagEntry, hs] at h
  · simp only [flagEntry, hs, Option.some.injEq] at h
    subst h
    exact ⟨hs, hk⟩

theorem splitN2_of_flagEntry_none {f : String} (h : flagEntry f = none) : splitN2 f '=' = [f] := by
  rcases splitN2_cases f '=' with ⟨hs, -⟩ | ⟨k, v, hs, -, -⟩
  · exact hs
  · simp [flagEntry, hs] at h

theorem parseEnv_ok : ∀ (flags : List String) (envVars : List (String × String)),
    (∀ f ∈ flags, flagEntry f ≠ none) →
      parseEnv envVars flags = .ok ((flags.filterMap flagEntry).foldl (fun m e => assign m e.1 e.2) envVars)
  | [], _, _ => rfl
  | f :: rest, envVars, h => by
    rcases hf : flagEntry f with _ | e
    · exact absurd hf (h f (List.mem_cons_self f rest))
    · rw [parseEnv, (splitN2_of_flagEntry hf).1, List.filterMap_cons, hf]
      exact parseEnv_ok rest _ fun g hg => h g (List.mem_cons_of_mem f hg)

theorem parseEnv_error : ∀ (flags : List String) (envVars : List (String × String)),
    (∃ f ∈ flags, flagEntry f = none) → ∃ e, parseEnv envVars flags = .error e
  | [], _, ⟨_, hf, _⟩ => nomatch hf
  | f :: rest, envVars, ⟨g, hg, hn⟩ => by
    rcases hf : flagEntry f with _ | e
    · exact ⟨_, by rw [parseEnv, splitN2_of_flagEntry_none hf]⟩
    · rw [parseEnv, (splitN2_of_flagEntry hf).1]
      rcases List.mem_cons.mp hg with rfl | hg
      · rw [hf] at hn
        cases hn
      · exact parseEnv_error rest _ ⟨g, hg, hn⟩

/-- The `--env` round trip: an error exactly on a flag with no `=`; otherwise the last
value per key, and the runner's texts split back into exactly those variables. -/
theorem env_flags_round_trip (flags : List String) :
    ((∃ e, parseEnv [] flags = .error e) ↔ ∃ f ∈ flags, '=' ∉ f.data) ∧
    ∀ envVars, parseEnv [] flags = .ok envVars →
      (envVars.map (·.1)).Nodup ∧ (∀ key, mapGet envVars key = flagValue flags key) ∧
      (jobEnv envVars).map (splitN2 · '=') = envVars.map fun e => [e.1, e.2] := by
  have hgood : (∀ f ∈ flags, flagEntry f ≠ none) → parseEnv [] flags =
      .ok ((flags.filterMap flagEntry).foldl (fun m e => assign m e.1 e.2) []) := parseEnv_ok flags []
  refine ⟨⟨fun ⟨e, he⟩ => ?_, fun ⟨f, hf, hn⟩ => parseEnv_error flags [] ⟨f, hf, (flagEntry_none_iff f).mpr hn⟩⟩,
    fun envVars h => ?_⟩
  · by_contra hall
    push_neg at hall
    rw [hgood fun f hf hn => (flagEntry_none_iff f).mp hn (hall f hf)] at he
    cases he
  · have hall : ∀ f ∈ flags, flagEntry f ≠ none := fun f hf hn => by
      obtain ⟨e, he⟩ := parseEnv_error flags [] ⟨f, hf, hn⟩
      rw [h] at he
      cases he
    rw [hgood hall] at h
    cases h
    refine ⟨foldl_assign_keys_nodup Prod.fst Prod.snd _ List.nodup_nil, fun key => ?_, ?_⟩
    · rw [mapGet_foldl_assign_last, flagValue]
      cases mapGet _ key <;> rfl
    · rw [jobEnv_eq, List.map_map]
      refine List.map_congr_left fun e he => ?_
      rcases mem_foldl_assign _ he with he | he
      · obtain ⟨f, -, hf⟩ := List.mem_filterMap.mp he
        exact splitN2_join e.1 e.2 (splitN2_of_flagEntry hf).2
      · cases he

/-- A value may hold `=`, and a later flag for a key wins. -/
example : parseEnv [] ["A=1", "B=x=y", "A=2"] = .ok [("A", "2"), ("B", "x=y")] := rfl

end executr.cli
