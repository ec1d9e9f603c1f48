/-
The middleware (Middleware.cpp), the error pages (Router.cpp) and the
session that runs them.

A component gets the rest of the pipeline as its `next`, as in the
source: `runPipeline` is a recursion over the components and every
component decides whether, and before which of its own effects, `next`
runs. Only `ErrorHandler` runs a method handler, after its `next`
returned.
-/
import CgiWebServer.Handlers

namespace CgiWebServer

open Process

/-- The components a pipeline is built from. -/
inductive Component
  | logger
  | errorHandler
  | parser
  | limiter (l : Limiter)
  | rateLimiter
  | authenticator

variable (env : Env)

-- ============================================================== limiters

/-- `FixedWindowLimiter::process`, on what the request meets. -/
def fixedWindowProcess (view : LimitView) (s : FixedWindowSetting)
    (next : Act Unit) : Act Unit := do
  let txn ← Proc.get
  let key ← lift (s.makeKey.makeKey env.ip txn.request)
  if s.windowSeconds = 0 then Proc.raise .crash
  else
    let windowId := FixedWindow.thisWindowId s view.secs
    match exchangeLoop (FixedWindow.attempt s windowId) true view.exchanges
        view.load with
    | .threw _ =>
        throwExn (FixedWindow.rejection s key windowId view.secs)
    | .running => Proc.raise .pending
    | .left desired =>
        modifyResponse fun r =>
          (FixedWindow.admittedHeaders s windowId desired).foldl
            (fun r h => r.addHeader h.1 h.2) r
        next

/-- `TokenBucketLimiter::process`, on what the request meets. -/
def tokenBucketProcess (view : LimitView) (s : TokenBucketSetting)
    (next : Act Unit) : Act Unit := do
  let txn ← Proc.get
  let _key ← lift (s.makeKey.makeKey env.ip txn.request)
  let secs := toU32 view.secs
  match exchangeLoop (TokenBucket.attempt s secs) false view.exchanges
      view.load with
  | .threw old =>
      throwExn (TokenBucket.rejection s env.ip txn.request secs old)
  | .running => Proc.raise .pending
  | .left desired =>
      modifyResponse fun r =>
        (TokenBucket.admittedHeaders s secs view.systemSecs desired).foldl
          (fun r h => r.addHeader h.1 h.2) r
      next

/-- A limiter's `process`. -/
def Limiter.process (view : LimitView) : Limiter → Act Unit → Act Unit
  | .fixedWindow s => fixedWindowProcess env view s
  | .tokenBucket s => tokenBucketProcess env view s

-- ================================================================ parser

/-- The exception of a `co_read` that fails, by its error. -/
def readFailed : Exn :=
  let message := bytes "Failed to read request from client: " ++ env.ip
  if isClientDisconnect env.readEc then
    .http (.mk' .clientClosedRequest message ∅)
  else .http (.mk' .internalServerError message ∅)

/-- `router->getEndpoint`, in a transaction. -/
def getEndpointAct (endpointUrl : Bytes) : Act EndpointPtr := do
  let txn ← Proc.get
  let (p, router) ← lift (txn.router.getEndpoint env.fileExists endpointUrl)
  Proc.modify fun txn => { txn with router := router }
  return p

/-- `router->getEndpointMethod`: a second lookup, then the method's. -/
def getEndpointMethodAct (endpointUrl : Bytes) (m : Method) :
    Act RoutePtr := do
  let p ← getEndpointAct env endpointUrl
  let txn ← Proc.get
  let endpoint ← derefPtr (txn.router.deref p)
  let _ ← lift (endpoint.getMethod m)
  return { endpoint := p, method := m }

/-- `mw::Parser::process`. -/
def parserProcess (next : Act Unit) : Act Unit := do
  if env.readEc ≠ .ok then throwExn (readFailed env)
  else
    let buffer := env.buffer
    let endpointUrl ← lift (extractEndpoint buffer)
    let endpoint ← getEndpointAct env endpointUrl
    let m ← lift (extractMethod buffer)
    let txn ← Proc.get
    let ep ← derefPtr (txn.router.deref endpoint)
    let argType ← lift (ep.getArgType m)
    let args ← lift (extractArgs env.json buffer argType)
    let headers ← lift (extractHeaders buffer)
    let body ← lift (extractBody buffer)
    let query ← lift (extractQueryString buffer)
    let route ← getEndpointMethodAct env endpointUrl m
    Proc.modify fun txn => { txn with
      request := {
        endpointUrl := endpointUrl
        endpoint := some endpoint
        method := m
        args := args
        headers := headers
        body := body
        query := query
        route := some route } }
    next

-- ========================================================= authenticator

/-- The `Unauthorized` of `validate` that tells the client's address. -/
def invalidToken (what : Bytes) : Exn :=
  .http (.mk' .unauthorized
    (bytes "[client " ++ env.ip ++ bytes "] invalid token [error "
      ++ what ++ bytes "]") ∅)

/-- The `try` block of `Authenticator::validate`; every exception in it,
its own included, becomes `invalidToken`. -/
def validateToken (accessRole token : Bytes) : Except Exn Unit :=
  match env.jwt token with
  | .error what => .error (invalidToken env what)
  | .ok decoded =>
      if decoded.expiresAt.any (env.now > ·) then
        .error (invalidToken env (bytes "expired token"))
      else
        match decoded.role with
        | none => .error (invalidToken env (bytes "claim not found"))
        | some role =>
            match env.roles.lookup role with
            | none =>
                .error (invalidToken env (bytes "insufficient permissions"))
            | some r =>
                if r.includesRole accessRole then .ok ()
                else
                  .error
                    (invalidToken env (bytes "insufficient permissions"))

/-- `Authenticator::validate`. -/
def validate (request : Request) (route : EndpointMethod) :
    Except Exn Unit :=
  if route.isProtected = false then .ok ()
  else
    let cookie := request.getHeader (bytes "Cookie")
    let token := extractJwtFromCookie cookie
    if cookie.isEmpty || token.isEmpty then
      .error (.ofStatus .unauthorized
        "missing or invalid authentication token")
    else validateToken env route.accessRole token

/-- The `Set-Cookie` value of a minted token. -/
def jwtCookie (token : Bytes) : Bytes :=
  bytes "jwt=" ++ token ++ bytes "; HttpOnly; Secure; SameSite=Strict;"

/-- The header that carries it. -/
def setCookie : Bytes := bytes "Set-Cookie"

/-- What `Authenticator::process` does after `next` on a route with
`is_authenticator`. The response's status is still the one it started
with: the method handler runs later. -/
def mintToken : Act Unit := do
  let txn ← Proc.get
  if !isSuccessCode txn.response.status then
    throwExn (.http (.mk' txn.response.status
      (bytes "Failed to authorize client: " ++ env.ip) ∅))
  else
    let endpoint ← derefPtr (txn.request.endpoint.bind txn.router.deref)
    let role ← lift (endpoint.getAuthRole txn.request.method)
    let cookie := jwtCookie (env.mint role)
    record (.minted cookie)
    modifyResponse (·.addHeader setCookie cookie)

/-- `mw::Authenticator::process`. -/
def authenticatorProcess (next : Act Unit) : Act Unit := do
  let txn ← Proc.get
  let route ← derefPtr (txn.request.route.bind txn.router.derefRoute)
  lift (validate env txn.request route)
  next
  if route.isAuthenticator then mintToken env else pure ()

/-- `mw::RateLimiter::process`. -/
def rateLimiterProcess (next : Act Unit) : Act Unit := do
  let txn ← Proc.get
  let route ← derefPtr (txn.request.route.bind txn.router.derefRoute)
  match route.rateLimiter with
  | some limiter => limiter.process env env.routeLimit next
  | none => next

-- =========================================================== error pages

/-- `DEFAULT_ERROR_PAGE.handler`: a failed write is only logged. -/
def defaultErrorPage : Act Unit := do
  let _ ← sendHead env
  pure ()

/-- The `try` block of a configured error page's handler. -/
def serveErrorPage (file : Bytes) : Act Unit := do
  let (opened, fileLen) ← openFileStreamer env .openedPage file
  modifyResponse (·.addHeader (bytes "Content-Length") (toStr fileLen))
  streamHead env
  streamFile env file opened fileLen

/-- The handler of a configured error page (`Router::addErrorPage`): if
it fails, the default page is sent. -/
def configuredErrorPage (file : Bytes) : Act Unit :=
  Proc.recover (serveErrorPage env file) fun stop =>
    match stop with
    | .raised _ => some (defaultErrorPage env)
    | _ => none

/-- An error page's handler. -/
def errorPage : Option Bytes → Act Unit
  | none => defaultErrorPage env
  | some file => configuredErrorPage env file

-- ========================================================= error handler

/-- The response an exception is answered with. -/
def errorResponse : Exn → Response
  | .http e => e.response
  | .std _ => Response.ofStatus .internalServerError

/-- What the two `catch` blocks of `ErrorHandler::process` and the code
behind them do. -/
def answerError (e : Exn) : Act Unit := do
  modifyResponse fun _ => errorResponse e
  let txn ← Proc.get
  errorPage env (txn.router.getErrorPage txn.response.status)

/-- The finisher: the handler of the request's endpoint and method. -/
def finish : Act Unit := do
  let txn ← Proc.get
  let endpoint ← derefPtr (txn.request.endpoint.bind txn.router.deref)
  let finisher ← lift (endpoint.getHandler txn.request.method)
  match finisher with
  | none => pure ()
  | some kind => do
      record (.handler kind)
      kind.run env

/-- `mw::ErrorHandler::process`. -/
def errorHandlerProcess (next : Act Unit) : Act Unit :=
  Proc.recover (do next; finish env) fun stop =>
    match stop with
    | .raised e => some (answerError env e)
    | _ => none

-- ============================================================== pipeline

/-- A component's `process`. `Logger` only reads the transaction. -/
def Component.process : Component → Act Unit → Act Unit
  | .logger, next => next
  | .errorHandler, next => errorHandlerProcess env next
  | .parser, next => parserProcess env next
  | .limiter l, next => l.process env env.globalLimit next
  | .rateLimiter, next => rateLimiterProcess env next
  | .authenticator, next => authenticatorProcess env next

/-- `run_pipeline`. -/
def runPipeline : List Component → Act Unit
  | [] => pure ()
  | c :: rest => c.process env (runPipeline rest)

/-- A session after its handshake: one transaction over the pipeline. -/
def transact (pipeline : List Component) (router : Router) : Txn :=
  (runPipeline env pipeline { router := router }).2

end CgiWebServer
