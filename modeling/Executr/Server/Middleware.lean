-- The status `HTTPMiddleware` counts a request under is the status net/http sends,
-- for every handler that sends no informational status.
import Mathlib.Data.List.Basic

namespace executr.metrics

/-! ## The two writers -/

/-- A call a handler makes on its `http.ResponseWriter`; `Header().Set` changes no status. -/
inductive WriterCall
  | writeHeader (statusCode : Nat)
  | write
deriving DecidableEq, Repr

/-- net/http's `response`: whether the header went out, and with which status. -/
structure Response where
  wroteHeader : Bool
  status : Nat
deriving DecidableEq, Repr

/-- `response.WriteHeader`: later calls are dropped, a code out of 100..999 panics
(none), and a 1xx but 101 goes out at once. -/
def Response.writeHeader (w : Response) (code : Nat) : Option Response :=
  if w.wroteHeader then some w
  else if code < 100 ∨ code > 999 then none
  else if 100 ≤ code ∧ code ≤ 199 ∧ code ≠ 101 then some w
  else some ⟨true, code⟩

/-- `response.Write`: the header goes out with 200 first if it has not. -/
def Response.write (w : Response) : Response :=
  if w.wroteHeader then w else ⟨true, 200⟩

/-- The status the client gets: `finishRequest` sends 200 if no header went out. -/
def Response.sent (w : Response) : Nat :=
  if w.wroteHeader then w.status else 200

/-- `responseWriter` around net/http's writer. -/
structure ResponseWriter where
  statusCode : Nat
  written : Bool
  inner : Response
deriving DecidableEq, Repr

/-- `&responseWriter{ResponseWriter: w, statusCode: 200}`, on a fresh response. -/
def ResponseWriter.init : ResponseWriter := ⟨200, false, ⟨false, 0⟩⟩

/-- `responseWriter.WriteHeader`: the first call is recorded and passed on. -/
def ResponseWriter.writeHeader (w : ResponseWriter) (statusCode : Nat) : Option ResponseWriter :=
  if !w.written then (w.inner.writeHeader statusCode).map fun r => ⟨statusCode, true, r⟩
  else some w

def ResponseWriter.write (w : ResponseWriter) : ResponseWriter :=
  ⟨w.statusCode, true, w.inner.write⟩

def ResponseWriter.call (w : ResponseWriter) : WriterCall → Option ResponseWriter
  | .writeHeader statusCode => w.writeHeader statusCode
  | .write => some w.write

/-- The calls of one handler, in order; none is a panic. -/
def ResponseWriter.run (w : ResponseWriter) : List WriterCall → Option ResponseWriter
  | [] => some w
  | c :: cs => (w.call c).bind fun w' => w'.run cs

/-! ## The recorded status is the sent status -/

/-- A code `WriteHeader` takes as the final status. -/
def FinalCode (code : Nat) : Prop := 100 ≤ code ∧ code ≤ 999 ∧ ¬(100 ≤ code ∧ code ≤ 199 ∧ code ≠ 101)

instance (code : Nat) : Decidable (FinalCode code) := inferInstanceAs (Decidable (_ ∧ _ ∧ _))

/-- A call that sends no informational status and no invalid one. -/
def WriterCall.Final : WriterCall → Prop
  | .writeHeader code => FinalCode code
  | .write => True

instance : DecidablePred WriterCall.Final
  | .writeHeader code => inferInstanceAs (Decidable (FinalCode code))
  | .write => inferInstanceAs (Decidable True)

/-- The wrapper has written exactly when net/http has, and records what it sends. -/
def ResponseWriter.Agrees (w : ResponseWriter) : Prop :=
  w.written = w.inner.wroteHeader ∧ w.statusCode = w.inner.sent

theorem ResponseWriter.init_agrees : ResponseWriter.init.Agrees := ⟨rfl, rfl⟩

theorem ResponseWriter.call_agrees {w : ResponseWriter} (hw : w.Agrees) {c : WriterCall} (hc : c.Final) :
    ∃ w', w.call c = some w' ∧ w'.Agrees := by
  obtain ⟨hwr, hst⟩ := hw
  cases c with
  | write =>
    refine ⟨_, rfl, ?_⟩
    cases hi : w.inner.wroteHeader <;>
      simp_all [ResponseWriter.Agrees, ResponseWriter.write, Response.write, Response.sent]
  | writeHeader code =>
    obtain ⟨h1, h2, h3⟩ := hc
    cases hwt : w.written
    · have hi : w.inner.wroteHeader = false := hwr ▸ hwt
      refine ⟨⟨code, true, ⟨true, code⟩⟩, ?_, rfl, rfl⟩
      simp [ResponseWriter.call, ResponseWriter.writeHeader, Response.writeHeader, hwt, hi,
        show ¬(code < 100 ∨ code > 999) by omega, h3]
    · exact ⟨w, by simp [ResponseWriter.call, ResponseWriter.writeHeader, hwt], hwr, hst⟩

theorem ResponseWriter.run_agrees : ∀ (cs : List WriterCall) {w : ResponseWriter}, w.Agrees →
    (∀ c ∈ cs, c.Final) → ∃ w', w.run cs = some w' ∧ w'.Agrees
  | [], w, hw, _ => ⟨w, rfl, hw⟩
  | c :: cs, w, hw, hcs => by
    obtain ⟨w', hc, hw'⟩ := ResponseWriter.call_agrees hw (hcs c (List.mem_cons_self c cs))
    obtain ⟨w'', hr, hw''⟩ := ResponseWriter.run_agrees cs hw' fun c' hm => hcs c' (List.mem_cons_of_mem c hm)
    exact ⟨w'', by rw [ResponseWriter.run, hc, Option.some_bind, hr], hw''⟩

/-- A handler that sends only final codes never panics and is counted under the
status its client gets. -/
theorem recorded_status_sent (calls : List WriterCall) (h : ∀ c ∈ calls, c.Final) :
    ∃ w, ResponseWriter.init.run calls = some w ∧ w.statusCode = w.inner.sent :=
  (ResponseWriter.run_agrees calls ResponseWriter.init_agrees h).imp fun _ hw => ⟨hw.1, hw.2.2⟩

/-- `writeError` of a 404: the header, then the JSON body. -/
theorem write_error_recorded : (∀ c ∈ [WriterCall.writeHeader 404, .write], c.Final) ∧
    ∃ w, ResponseWriter.init.run [.writeHeader 404, .write] = some w ∧ w.statusCode = w.inner.sent :=
  ⟨by decide, recorded_status_sent _ (by decide)⟩

example : (ResponseWriter.init.run [.writeHeader 103, .write]).map (fun w => (w.statusCode, w.inner.sent)) =
    some (103, 200) := rfl

end executr.metrics
