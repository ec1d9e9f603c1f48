/-
The handlers on a request that is routed.

A routed request points, by its endpoint and its method, at one entry of
the table. On such a request every null check of the handlers passes and
every getter finds the entry, so each handler is one of a few runs of
the streamers with the entry's own resource.
-/
import CgiWebServer.Proofs.Writing

namespace CgiWebServer

open Process

/-- The request's pointers lead to an entry of the table: that of its
endpoint and its method. -/
structure Routed (request : Request) (router : Router)
    (entry : EndpointMethod) : Prop where
  endpoint : request.endpoint = some request.endpointUrl
  route : request.route = some
    { endpoint := request.endpointUrl, method := request.method }
  entry : router.derefRoute
    { endpoint := request.endpointUrl, method := request.method }
      = some entry

namespace Routed

variable {request : Request} {router : Router} {entry : EndpointMethod}

/-- The route the request points at is the entry. -/
theorem route_entry (h : Routed request router entry) :
    request.route.bind router.derefRoute = some entry := by
  rw [h.route]
  exact h.entry

theorem endpoint_deref (h : Routed request router entry) :
    request.endpoint.bind router.deref
      = router.deref request.endpointUrl := by
  rw [h.endpoint, Option.bind_some]

/-- The endpoint the request points at holds the entry. -/
theorem endpoint_entry (h : Routed request router entry) :
    ∃ ep, router.deref request.endpointUrl = some ep
      ∧ ep.methods.lookup request.method = some entry := by
  have hentry := h.entry
  unfold Router.derefRoute at hentry
  cases hep : router.deref request.endpointUrl with
  | none =>
      rw [hep] at hentry
      cases hentry
  | some ep =>
      rw [hep] at hentry
      exact ⟨ep, rfl, hentry⟩

end Routed

section Handlers

variable (env : Env) {s : Txn} {entry : EndpointMethod}

/-- The relaying of a script's output, as GET and POST run it. -/
def relayScript (script : Bytes) : Act Unit := do
  let txn ← Proc.get
  streamScript env script txn.request.args (some (relayChunk env true))

theorem spawn_of_none (h : env.script.fails = none) (script args : Bytes) :
    spawn env script args = record (.spawned (cStr script) args) := by
  unfold spawn
  rw [h]

theorem spawn_of_some {step : SpawnStep} (h : env.script.fails = some step)
    (script args : Bytes) (s : Txn) :
    ∃ e s', spawn env script args s = (.error (.raised e), s') := by
  unfold spawn
  rw [h]
  cases step <;> exact ⟨_, _, rfl⟩

/-- The transaction in which a spawned script is read. -/
def spawnedTxn (script : Bytes) (s : Txn) : Txn :=
  emit (.spawned (cStr script) s.request.args) s

/-- The loop over the reads, as GET and POST run it. -/
abbrev relayLoop (script : Bytes) (reads : List ScriptRead) : Act Unit :=
  scriptLoop env script (some (relayChunk env true)) reads

theorem relayScript_of_none (h : env.script.fails = none)
    (script : Bytes) (s : Txn) :
    relayScript env script s
      = relayLoop env script env.script.reads (spawnedTxn script s) := by
  show streamScript env script s.request.args _ s = _
  unfold streamScript
  rw [spawn_of_none env h]
  rfl

/-- The script GET finds through the endpoint is the entry's. -/
theorem handleScript_routed (h : Routed s.request s.router entry) :
    GetHandler.handleScript env s = relayScript env entry.resource s := by
  obtain ⟨ep, hep, hentry⟩ := h.endpoint_entry
  unfold GetHandler.handleScript
  simp only [Proc.bind_apply, Proc.get_apply, h.endpoint, Option.bind_some,
    hep, derefPtr, Proc.pure_apply, Endpoint.getResource, Endpoint.field,
    hentry, lift, Proc.ofExcept_ok]
  rfl

/-- GET relays the entry's script or sends its file. -/
theorem getHandler_routed (h : Routed s.request s.router entry) :
    GetHandler.handle env s
      = if entry.hasScript then relayScript env entry.resource s
        else GetHandler.handleFile env entry s := by
  rw [← handleScript_routed env h]
  unfold GetHandler.handle
  simp only [Proc.bind_apply, Proc.get_apply, h.endpoint, h.route, h.entry,
    derefPtr, Proc.pure_apply]
  cases hscript : entry.hasScript with
  | false => rfl
  | true => rfl

/-- POST relays the entry's script or refuses. -/
theorem postHandler_routed (h : Routed s.request s.router entry) :
    PostHandler.handle env s
      = if entry.hasScript then relayScript env entry.resource s
        else (.error (.raised (noRoute "POST" s.request.endpointUrl)), s) := by
  unfold PostHandler.handle
  simp only [Proc.bind_apply, Proc.get_apply, h.endpoint, h.route, h.entry,
    derefPtr, Proc.pure_apply]
  cases hscript : entry.hasScript with
  | false => rfl
  | true => rfl

/-- HEAD refuses a script and answers for a file. -/
theorem headHandler_routed (h : Routed s.request s.router entry) :
    HeadHandler.handle env s
      = if entry.hasScript then
          (.error (.raised (noRoute "GET" s.request.endpointUrl)), s)
        else
          (HeadHandler.buildResponse env entry >>= fun _ =>
            streamHead env) s := by
  unfold HeadHandler.handle
  simp only [Proc.bind_apply, Proc.get_apply, h.endpoint, h.route, h.entry,
    derefPtr, Proc.pure_apply]
  cases hscript : entry.hasScript with
  | false => rfl
  | true => rfl

/-- The response a file is sent with. -/
def fileResponse (contentType : Bytes) (r : Response) : Response :=
  ((r.setStatus .ok).addHeader (bytes "Connection") (bytes "close")).addHeader
    (bytes "Content-Type") contentType

/-- What HEAD answers with. -/
def headResponse (contentType : Bytes) (fileLen : Int) (r : Response) :
    Response :=
  (fileResponse contentType r).addHeader (bytes "Content-Length")
    (toStr fileLen)

/-- HEAD answers for the entry's file once it has opened it and knows its
type. -/
theorem buildResponse_routed (h : Routed s.request s.router entry) :
    HeadHandler.buildResponse env entry s
      = (if (env.file s.time (cStr entry.resource)).opens = false
            ∨ (env.file s.time (cStr entry.resource)).fileLen ≤ 0 then
          (.error (.raised (HeadHandler.notOpened entry.resource
            s.request.endpointUrl)), emit (.opened (cStr entry.resource)) s)
        else
          match determineContentType entry.resource with
          | none =>
              (.error (.raised (.http (.mk' .forbidden
                (bytes "failed to extract content type for endpoint="
                  ++ s.request.endpointUrl ++ bytes ", from file="
                  ++ entry.resource) ∅))),
                emit (.opened (cStr entry.resource)) s)
          | some c =>
              (.ok (), { emit (.opened (cStr entry.resource)) s with
                response := headResponse c
                  (env.file s.time (cStr entry.resource)).fileLen
                  s.response })) := by
  obtain ⟨ep, hep, hentry⟩ := h.endpoint_entry
  unfold HeadHandler.buildResponse record
  simp only [Proc.bind_apply, Proc.get_apply, Proc.modify_apply]
  split
  · rfl
  · simp only [Proc.bind_apply, h.endpoint, Option.bind_some, hep, derefPtr,
      Proc.pure_apply, Endpoint.getResource, Endpoint.field, hentry, lift,
      Proc.ofExcept_ok]
    cases determineContentType entry.resource with
    | none => rfl
    | some c => rfl

/-- What OPTIONS answers with: the response as it stands, and the methods
of the endpoint. -/
def optionsResponse (ep : Endpoint) (s : Txn) : Response :=
  (((s.response.addHeader (bytes "Allow")
      (OptionsHandler.getMethodsStr ep.getMethods)).addHeader
      (bytes "Content-Length") (bytes "0")).addHeader
      (bytes "Connection") (bytes "close")).build (env.date s.time)

/-- What the socket takes of a buffer in one `co_write`. -/
def firstTaken (buffer : Bytes) (answers : List WriteAnswer) : Bytes :=
  match answers with
  | [] => []
  | a :: _ => buffer.take (a.taken buffer.length)

/-- OPTIONS sends one head and throws nothing. -/
theorem optionsHandler_routed (h : Routed s.request s.router entry) :
    ∃ ep, OptionsHandler.handle env s
      = (if env.socket s.time 0 = [] then .error .pending else .ok (),
          { s with
            response := optionsResponse env ep s
            trace := s.trace ++ [.head (optionsResponse env ep s)
              (firstTaken (optionsResponse env ep s).serialise
                (env.socket s.time 0))] }) := by
  obtain ⟨ep, hep, -⟩ := h.endpoint_entry
  refine ⟨ep, ?_⟩
  have htime (r : Response) :
      Txn.time { s with response := r } = s.time := rfl
  unfold OptionsHandler.handle
  simp only [Proc.bind_apply, Proc.get_apply, h.endpoint, hep, derefPtr,
    Proc.pure_apply, modifyResponse, Proc.modify_apply, htime]
  cases hanswers : env.socket s.time 0 with
  | nil => rfl
  | cons a rest => rfl

/-- A transaction in which a handler has started. -/
def begun (kind : HandlerKind) (s : Txn) : Txn :=
  { s with trace := s.trace ++ [.handler kind] }

/-- The finisher is the entry's handler. -/
theorem finish_routed (h : Routed s.request s.router entry) :
    finish env s
      = match entry.handler with
        | none => (.ok (), s)
        | some kind => kind.run env (begun kind s) := by
  obtain ⟨ep, hep, hentry⟩ := h.endpoint_entry
  unfold finish
  simp only [Proc.bind_apply, Proc.get_apply, h.endpoint, Option.bind_some,
    hep, derefPtr, Proc.pure_apply, Endpoint.getHandler_of_lookup hentry,
    lift, Proc.ofExcept_ok]
  cases entry.handler with
  | none => rfl
  | some kind => rfl

theorem finish_of_handler (h : Routed s.request s.router entry)
    {kind : HandlerKind} (hhandler : entry.handler = some kind) :
    finish env s = kind.run env (begun kind s) := by
  rw [finish_routed env h, hhandler]

/-- GET and POST relay a route's script. -/
theorem run_script (h : Routed s.request s.router entry)
    (hscript : entry.hasScript = true) {kind : HandlerKind}
    (hhead : kind ≠ .head) (hoptions : kind ≠ .options) :
    kind.run env s = relayScript env entry.resource s := by
  cases kind with
  | get =>
      rw [show HandlerKind.get.run env s = _ from getHandler_routed env h,
        if_pos hscript]
  | post =>
      rw [show HandlerKind.post.run env s = _ from postHandler_routed env h,
        if_pos hscript]
  | head => exact absurd rfl hhead
  | options => exact absurd rfl hoptions

/-- `ErrorHandler` answers an exception of its `next` or of the handler
behind it, and nothing else. -/
theorem errorHandler_apply (next : Act Unit) (s : Txn) :
    errorHandlerProcess env next s
      = match (next >>= fun _ => finish env) s with
        | (.ok u, s') => (.ok u, s')
        | (.error (.raised e), s') => answerError env e s'
        | (.error stop, s') => (.error stop, s') := by
  unfold errorHandlerProcess Proc.recover
  cases hrun : (next >>= fun _ => finish env) s with
  | mk result s' =>
      cases result with
      | ok u => rfl
      | error stop =>
          cases stop with
          | raised e => rfl
          | pending => rfl
          | crash => rfl

end Handlers

end CgiWebServer
