/-
The route table (Router.cpp): endpoints, their methods, and error pages.

A handler closure is the class whose `handle` it calls, and a configured
error page is the file its closure captured; what they do is in
`Handlers` and `Pipeline`.
-/
import CgiWebServer.Http.Extract
import CgiWebServer.Limiter.FixedWindow
import CgiWebServer.Limiter.TokenBucket

namespace CgiWebServer

/-- A limiter component, by its setting. -/
inductive Limiter
  | fixedWindow (s : FixedWindowSetting)
  | tokenBucket (s : TokenBucketSetting)

/-- The class of a `Handler` closure. -/
inductive HandlerKind
  | get
  | post
  | head
  | options
  deriving DecidableEq, Repr

/-- `assign_handler`. -/
def assignHandler : Method → Except Exn HandlerKind
  | .get => .ok .get
  | .post => .ok .post
  | .head => .ok .head
  | .options => .ok .options
  | .notAllowed =>
      .error (.ofStatus .notImplemented "request method not supported")

/-- `http::EndpointMethod`; a `Handler` that holds no closure is `none`. -/
structure EndpointMethod where
  m : Method
  accessRole : Bytes
  authRole : Bytes := []
  isProtected : Bool := false
  isAuthenticator : Bool := false
  resource : Bytes := []
  hasScript : Bool := false
  args : ArgType := .none
  handler : Option HandlerKind := none
  rateLimiter : Option Limiter := none

-- ========================================================= endpoints

/-- `http::Endpoint`. Nothing sets its `endpoint`. -/
structure Endpoint where
  methods : AList fun _ : Method => EndpointMethod := ∅
  endpoint : Bytes := []

namespace Endpoint

def addMethod (e : Endpoint) (method : EndpointMethod) : Endpoint :=
  { e with methods := e.methods.insert method.m method }

/-- The exception of the getters; `what` is what they failed to
retrieve. -/
def missing (e : Endpoint) (what : String) (m : Method) : Exn :=
  .http (.mk' .methodNotAllowed
    (bytes "failed to retrieve " ++ bytes what ++ methodEnumToStr m
      ++ bytes " " ++ e.endpoint ++ bytes " does not exist") ∅)

/-- A getter: a field of the entry of a method, or the exception. -/
def field {α : Type} (what : String) (get : EndpointMethod → α)
    (e : Endpoint) (m : Method) : Except Exn α :=
  match e.methods.lookup m with
  | none => .error (e.missing what m)
  | some entry => .ok (get entry)

def getMethod : Endpoint → Method → Except Exn EndpointMethod :=
  field "method: " id

def getArgType : Endpoint → Method → Except Exn ArgType :=
  field "argument type: " (·.args)

def getAuthRole : Endpoint → Method → Except Exn Bytes :=
  field "auth role: " (·.authRole)

def getResource : Endpoint → Method → Except Exn Bytes :=
  field "script: " (·.resource)

/-- `getHandler`: a missing GET or HEAD falls back on its own class. -/
def getHandler (e : Endpoint) (m : Method) :
    Except Exn (Option HandlerKind) :=
  match e.methods.lookup m with
  | none =>
      if m ≠ .get ∧ m ≠ .head then .error (e.missing "handler " m)
      else (assignHandler m).map some
  | some entry => .ok entry.handler

def getMethods (e : Endpoint) : List Method := e.methods.keys

/-- A getter that returns has found the entry. -/
theorem field_ok {α : Type} {what : String} {get : EndpointMethod → α}
    {e : Endpoint} {m : Method} {x : α}
    (h : field what get e m = .ok x) :
    ∃ entry, e.methods.lookup m = some entry ∧ x = get entry := by
  unfold field at h
  split at h
  next => cases h
  next entry hentry =>
    cases h
    exact ⟨entry, hentry, rfl⟩

/-- Where the entry of a method exists, its handler is the entry's. -/
theorem getHandler_of_lookup {e : Endpoint} {m : Method}
    {entry : EndpointMethod} (h : e.methods.lookup m = some entry) :
    e.getHandler m = .ok entry.handler := by
  simp only [getHandler, h]

end Endpoint

-- ============================================================ router

/-- `"public"`, the directory default endpoints are served from. -/
def publicDir : Bytes := bytes "public"

/-- `VIEWER_ROLE_HASH` and `ADMIN_ROLE_HASH` (`get_role_hash` is the
identity). -/
def viewerRole : Bytes := bytes "viewer"
def adminRole : Bytes := bytes "admin"

/-- `http::Router`. -/
structure Router where
  endpoints : AList fun _ : Bytes => Endpoint
  errorPages : AList fun _ : Code => Bytes

namespace Router

/-- `create_default_endpoint_method`. -/
def createDefaultEndpointMethod (endpoint : Bytes) (m : Method) :
    Except Exn EndpointMethod := do
  let handler ← assignHandler m
  return { m := m, accessRole := viewerRole, resource := endpoint,
           handler := some handler }

/-- `ROOT_ENDPOINT`. -/
def rootEndpoint : Endpoint :=
  (({} : Endpoint).addMethod
    { m := .get, accessRole := viewerRole, handler := some .get,
      resource := bytes "public/index.html" }).addMethod
    { m := .head, accessRole := viewerRole, handler := some .head,
      resource := bytes "public/index.html" }

/-- The constructor, before anything is configured. -/
def initial : Router where
  endpoints := (∅ : AList fun _ : Bytes => Endpoint).insert (bytes "/")
    rootEndpoint
  errorPages := ∅

/-- The endpoint a lookup caches for a file under `public`. -/
def defaultEndpoint (endpoint : Bytes) : Except Exn Endpoint := do
  let get ← createDefaultEndpointMethod (publicDir ++ endpoint) .get
  let head ← createDefaultEndpointMethod (publicDir ++ endpoint) .head
  return (({} : Endpoint).addMethod get).addMethod head

/-- `getEndpoint`: the pointer and the table it leaves. `fileExists` is
whether `stat` succeeds. -/
def getEndpoint (fileExists : Bytes → Bool) (r : Router)
    (endpoint : Bytes) : Except Exn (EndpointPtr × Router) := do
  if endpoint ∈ r.endpoints then return (endpoint, r)
  else if !fileExists (cStr (publicDir ++ endpoint)) then
    throw (.http (.mk' .notFound
      (bytes "request for " ++ endpoint ++ bytes ": does not exist") ∅))
  else
    let ep ← defaultEndpoint endpoint
    return (endpoint, { r with endpoints := r.endpoints.insert endpoint ep })

/-- What an `Endpoint*` points at. -/
def deref (r : Router) (p : EndpointPtr) : Option Endpoint :=
  r.endpoints.lookup p

/-- What an `EndpointMethod*` points at. -/
def derefRoute (r : Router) (p : RoutePtr) : Option EndpointMethod :=
  (r.deref p.endpoint).bind fun e => e.methods.lookup p.method

/-- `getErrorPage`: the configured file, `none` for the default page. -/
def getErrorPage (r : Router) (status : Code) : Option Bytes :=
  r.errorPages.lookup status

/-- `addErrorPage`. -/
def addErrorPage (r : Router) (status : Code) (file : Bytes) : Router :=
  { r with errorPages := r.errorPages.insert status file }

/-- `updateEndpoint`. -/
def updateEndpoint (r : Router) (endpointUrl : Bytes)
    (method : EndpointMethod) : Except Exn Router := do
  let handler ← assignHandler method.m
  let endpoint := (r.endpoints.lookup endpointUrl).getD {}
  return { r with
    endpoints := r.endpoints.insert endpointUrl
      (endpoint.addMethod { method with handler := some handler }) }

/-- What a lookup does: it finds the entry and leaves the table alone, or
it adds a default entry under a key that had none. -/
theorem getEndpoint_ok {fileExists : Bytes → Bool} {r r' : Router}
    {endpoint p : Bytes}
    (h : r.getEndpoint fileExists endpoint = .ok (p, r')) :
    p = endpoint
      ∧ ((endpoint ∈ r.endpoints ∧ r' = r)
        ∨ (endpoint ∉ r.endpoints
          ∧ fileExists (cStr (publicDir ++ endpoint)) = true
          ∧ ∃ ep, defaultEndpoint endpoint = .ok ep
            ∧ r' = { r with
                endpoints := r.endpoints.insert endpoint ep })) := by
  unfold getEndpoint at h
  by_cases hmem : endpoint ∈ r.endpoints
  · rw [if_pos hmem] at h
    cases h
    exact ⟨rfl, Or.inl ⟨hmem, rfl⟩⟩
  · rw [if_neg hmem] at h
    by_cases hexists : fileExists (cStr (publicDir ++ endpoint)) = true
    · simp only [hexists, Bool.not_true, Bool.false_eq_true, if_false] at h
      cases h
      exact ⟨rfl, Or.inr ⟨hmem, hexists, _, rfl, rfl⟩⟩
    · simp only [hexists, Bool.not_false, if_true] at h
      cases h

end Router

end CgiWebServer
