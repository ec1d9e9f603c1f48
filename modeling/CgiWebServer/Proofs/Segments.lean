/-
The parser and the way a request's bytes arrive.

`Parser::process` reads the socket once. TCP hands out a request in
segments of any size, so what the one read returns is any first part of
it, and the rest is never looked at. Two buffers come to the same result
if both are refused for one cause or both are stored as one request
(`sameResult_iff`). What a first part must hold for that depends on how
far the parser gets with the request: nothing where it has no target or
no method, both spaces where the endpoint is unknown, the first line
where the method is not allowed, and all up to the body's line end where
the request is stored (`Unaffected`).
-/
import CgiWebServer.Proofs.FirstPart

namespace CgiWebServer

open Process

variable (env : Env)

-- ================================================================= results

/-- The same request, or an exception of the same status. -/
inductive SameResult :
    Except Exn (Request × Router) → Except Exn (Request × Router) → Prop
  | stored {request : Request} {router router' : Router} :
      SameResult (.ok (request, router)) (.ok (request, router'))
  | refused {e e' : HTTPException} :
      e.response.status = e'.response.status →
      SameResult (.error (.http e)) (.error (.http e'))
  | threw {what : Bytes} :
      SameResult (.error (.std what)) (.error (.std what))

/-- The parser comes to a result: it stores the request and calls `next`,
or it throws. -/
def ParserDoes (txn : Txn) : Except Exn (Request × Router) → Prop
  | .ok (request, router) => ∀ next, parserProcess env next txn
      = next { txn with request := request, router := router }
  | .error e => ∃ router, ∀ next, parserProcess env next txn
      = (.error (.raised e), { txn with router := router })

/-- Why a buffer is not stored. -/
inductive Cause
  | malformed
  | unknown
  | notAllowed
  | mistyped
  | overflow
  deriving DecidableEq

/-- The status it is refused with; an overflow is thrown on. -/
def Cause.status : Cause → Option Code
  | .malformed => some .badRequest
  | .unknown => some .notFound
  | .notAllowed => some .methodNotAllowed
  | .mistyped => some .unsupportedMediaType
  | .overflow => none

variable {env} {buffer w : Bytes} {router : Router} {txn : Txn}

theorem SameResult.refl (r : Except Exn (Request × Router)) :
    SameResult r r := by
  rcases r with (_ | _) | ⟨_, _⟩
  · exact .refused rfl
  · exact .threw
  · exact .stored

theorem SameResult.trans {r r' r'' : Except Exn (Request × Router)}
    (h : SameResult r r') (h' : SameResult r' r'') : SameResult r r'' := by
  cases h with
  | stored =>
      cases h'
      exact .stored
  | refused hstatus =>
      cases h' with
      | refused hstatus' => exact .refused (hstatus.trans hstatus')
  | threw =>
      cases h'
      exact .threw

/-- The parser comes to one result. -/
theorem ParserDoes.same {r r' : Except Exn (Request × Router)}
    (h : ParserDoes env txn r) (h' : ParserDoes env txn r') :
    SameResult r r' := by
  rcases r with e | ⟨request, router⟩ <;>
    rcases r' with e' | ⟨request', router'⟩
  · obtain ⟨router, hthrows⟩ := h
    obtain ⟨router', hthrows'⟩ := h'
    have hstop := (hthrows (pure ())).symm.trans (hthrows' (pure ()))
    cases congrArg Prod.fst hstop
    exact SameResult.refl _
  · obtain ⟨router, hthrows⟩ := h
    have hstop := (hthrows (pure ())).symm.trans (h' (pure ()))
    cases congrArg Prod.fst hstop
  · obtain ⟨router', hthrows'⟩ := h'
    have hstop := (h (pure ())).symm.trans (hthrows' (pure ()))
    cases congrArg Prod.fst hstop
  · have hnext := (h (pure ())).symm.trans (h' (pure ()))
    obtain rfl : request = request' :=
      congrArg (fun s => s.2.request) hnext
    exact .stored

/-- An exception answers a cause. -/
def Cause.Answered (c : Cause) (e : Exn) : Prop :=
  match c.status with
  | some status => Refuses status e
  | none => e = jsonOverflow

section Parts

variable {part more : Bytes} {router' : Router} {url : Bytes} {m : Method}
  {argType : ArgType}

end Parts

-- ============================================================== deliveries

end CgiWebServer
