/-
Loading the configuration (config.cpp): limiters, the pipeline and the
routes, from the document's elements.

The document is what tinyxml2 hands out: elements with attributes, child
elements and a text. The rest of the start-up, which decides the roles,
the keys and the error pages, is in `Startup`; the error pages of the
table are arbitrary here.
-/
import CgiWebServer.Pipeline

namespace CgiWebServer

/-- A `tinyxml2::XMLElement`. -/
inductive XMLElement
  | mk (name : Bytes) (attributes : List (Bytes × Bytes))
      (children : List XMLElement) (text : Option Bytes := none)

namespace XMLElement

def name : XMLElement → Bytes
  | mk n _ _ _ => n

/-- `GetText`. -/
def text : XMLElement → Option Bytes
  | mk _ _ _ t => t

/-- `Attribute`. -/
def attributeOf : XMLElement → Bytes → Option Bytes
  | mk _ attributes _ _, key => attributes.lookup key

/-- The child elements of a name: `FirstChildElement` is the first of
them, `NextSiblingElement` goes on through them. -/
def childElements : XMLElement → Bytes → List XMLElement
  | mk _ _ children _, n => children.filter fun c => c.name == n

/-- `FirstChildElement`. -/
def firstChildElement (e : XMLElement) (n : Bytes) : Option XMLElement :=
  (e.childElements n).head?

end XMLElement

/-- An attribute, empty if there is none. -/
def attributeOrEmpty (e : XMLElement) (key : String) : Bytes :=
  (e.attributeOf (bytes key)).getD []

-- ============================================================== failures

/-- How the start-up can end without a configuration: `FATAL` (it logs
the message, flushes and exits), an exception that leaves `initialize`,
a null pointer given to a `std::string`, a number read as a string by a
log message, or a loop without an end. -/
inductive Abort
  | fatal (message : Bytes)
  | threw (e : Exn)
  | nullText
  | badFormat
  | endless
  deriving DecidableEq

/-- `FATAL`, without the process id and the stack trace it appends. -/
def fatal {α : Type} (message : String) : Except Abort α :=
  .error (.fatal (bytes message))

/-- An exception that leaves `initialize`. -/
def orThrow {α : Type} : Except Exn α → Except Abort α
  | .error e => .error (.threw e)
  | .ok a => .ok a

-- =============================================================== numbers

def defaultWindowSeconds : Int := 60
def defaultMaxRequests : Int := 3000
def defaultTokenCapacity : Int := 60
def defaultRefillRate : Int := 2

/-- An `int`, by wrapping: what the machine does with a product that
leaves the type. -/
def wrapInt (x : Int) : Int :=
  (x + 2147483648) % 4294967296 - 2147483648

/-- `get_seconds_multiplier`. -/
def getSecondsMultiplier (unit : Bytes) : Int :=
  if unit = bytes "d" ∨ unit = bytes "day" ∨ unit = bytes "days" then 86400
  else if unit = bytes "h" ∨ unit = bytes "hr" ∨ unit = bytes "hour"
      ∨ unit = bytes "hours" then 3600
  else if unit = bytes "m" ∨ unit = bytes "min" ∨ unit = bytes "mins" then
    60
  else 1

/-- `get_seconds_from_time_str`. -/
def getSecondsFromTimeStr (data : Bytes) : Int :=
  let token := (data.dropWhile isSpace).takeWhile fun b => !isSpace b
  let digits := token.takeWhile isDigit
  if digits.isEmpty then defaultWindowSeconds
  else
    match stoi digits with
    | none => defaultWindowSeconds
    | some value =>
        let unit := (token.drop digits.length).map toLower
        wrapInt (getSecondsMultiplier unit * value)

/-- `load_int`. -/
def loadInt (intStr : Option Bytes) (fallback : Int) : Int :=
  match intStr with
  | none => fallback
  | some s => (stoi s).getD fallback

/-- `load_refill_rate`. Digits no `int` holds leave the value at zero;
without a `/` the `substr` starts at the text's beginning
(`npos + 1` is zero). -/
def loadRefillRate (buf : Option Bytes) : Int :=
  match buf with
  | none => defaultRefillRate
  | some rateStr =>
      let digits := rateStr.takeWhile isDigit
      if digits.isEmpty then defaultRefillRate
      else
        let value := (stoi digits).getD 0
        let unit :=
          match Scan.find (bytes "/") rateStr with
          | none => rateStr
          | some pos => rateStr.drop (pos + 1)
        value.tdiv (getSecondsMultiplier unit)

-- ============================================================== limiters

/-- `get_key_func`: the key and the final `*uses_ip`. -/
def getKeyFunc (algo : XMLElement) : KeyFunc × Bool :=
  match algo.firstChildElement (bytes "Key") with
  | none => (.ip, true)
  | some key =>
      let keyType := (attributeOrEmpty key "type").map toLower
      let ipFallback :=
        match key.attributeOf (bytes "fallback") with
        | none => true
        | some f => f == bytes "ip"
      if keyType = bytes "header" then
        let headerName := attributeOrEmpty key "name"
        if headerName.isEmpty then (.ip, true)
        else (.header headerName ipFallback, false)
      else if keyType = bytes "xff" then (.xff ipFallback, false)
      else if keyType = bytes "query" then (.query ipFallback, false)
      else (.ip, true)

/-- `load_token_bucket`, with the final `*uses_ip`. -/
def loadTokenBucket (algo : XMLElement) : Limiter × Bool :=
  let (makeKey, usesIp) := getKeyFunc algo
  (.tokenBucket {
    capacity :=
      loadInt (algo.attributeOf (bytes "capacity")) defaultTokenCapacity
    refillRate := loadRefillRate (algo.attributeOf (bytes "refill_rate"))
    makeKey := makeKey }, usesIp)

/-- `load_fixed_window`, with the final `*uses_ip`. -/
def loadFixedWindow (algo : XMLElement) : Limiter × Bool :=
  let (makeKey, usesIp) := getKeyFunc algo
  (.fixedWindow {
    maxRequests :=
      loadInt (algo.attributeOf (bytes "max_requests")) defaultMaxRequests
    windowSeconds :=
      match algo.attributeOf (bytes "window") with
      | none => defaultWindowSeconds
      | some w => getSecondsFromTimeStr w
    makeKey := makeKey }, usesIp)

/-- `load_limiter`, with the final `*uses_ip`, which is true before. The
message for an algorithm it does not know has a `%s`, and the first
argument behind it is an `int`: the start-up does not get to the default
limiter it announces. -/
def loadLimiter (algo : XMLElement) : Except Abort (Limiter × Bool) :=
  let algorithm := attributeOrEmpty algo "algorithm"
  if algorithm.isEmpty then .ok (loadFixedWindow algo)
  else if algorithm = bytes "fixed window"
      ∨ algorithm = bytes "fixed_window" then .ok (loadFixedWindow algo)
  else if algorithm = bytes "token bucket"
      ∨ algorithm = bytes "token_bucket" then .ok (loadTokenBucket algo)
  else .error .badFormat

/-- The algorithms `load_limiter` knows. -/
inductive Algorithm
  | fixedWindow
  | tokenBucket
  | unsupported
  deriving DecidableEq

/-- The one an element asks for. -/
def algorithmOf (algo : XMLElement) : Algorithm :=
  let algorithm := attributeOrEmpty algo "algorithm"
  if algorithm.isEmpty ∨ algorithm = bytes "fixed window"
      ∨ algorithm = bytes "fixed_window" then .fixedWindow
  else if algorithm = bytes "token bucket"
      ∨ algorithm = bytes "token_bucket" then .tokenBucket
  else .unsupported

/-- What is loaded for it. -/
theorem loadLimiter_eq (algo : XMLElement) :
    loadLimiter algo
      = match algorithmOf algo with
        | .fixedWindow => .ok (loadFixedWindow algo)
        | .tokenBucket => .ok (loadTokenBucket algo)
        | .unsupported => .error .badFormat := by
  simp only [loadLimiter, algorithmOf]
  by_cases hempty : (attributeOrEmpty algo "algorithm").isEmpty
  · rw [if_pos hempty, if_pos (Or.inl hempty)]
  · rw [if_neg hempty]
    split
    next hfixed => rw [if_pos (Or.inr hfixed)]
    next hfixed =>
      rw [if_neg (not_or.mpr ⟨hempty, hfixed⟩)]
      split
      next => rfl
      next => rfl

/-- `loadGlobalRateLimit`: no limiter if it is disabled. -/
def loadGlobalRateLimit (serverConfig : XMLElement) :
    Except Abort (Option Limiter × Bool) :=
  match serverConfig.firstChildElement (bytes "Global") with
  | none => .ok (some (.fixedWindow {}), true)
  | some globalElem =>
      match globalElem.firstChildElement (bytes "RateLimit") with
      | none => .ok (some (.fixedWindow {}), true)
      | some rateElem =>
          if rateElem.attributeOf (bytes "disable") = some (bytes "true") then
            .ok (none, true)
          else do
            let (l, usesIp) ← loadLimiter rateElem
            return (some l, usesIp)

-- ============================================================== pipeline

/-- The components of a pipeline, in their order. -/
def pipelineOf (limiter : Option Limiter) (globalUsesIp : Bool) :
    List Component :=
  let global := limiter.toList.map Component.limiter
  [.logger, .errorHandler]
    ++ (if globalUsesIp then global else [])
    ++ [.parser]
    ++ (if globalUsesIp then [] else global)
    ++ [.rateLimiter, .authenticator]

/-- `loadPipeline`. -/
def loadPipeline (serverConfig : XMLElement) :
    Except Abort (List Component) := do
  let (limiter, globalUsesIp) ← loadGlobalRateLimit serverConfig
  return pipelineOf limiter globalUsesIp

-- ================================================================ routes

/-- `http::arg_str_to_enum`. -/
def argStrToEnum (args : Bytes) : ArgType :=
  let argsUpper := (trim args).map toUpper
  if argsUpper = bytes "JSON" then .bodyJson
  else if argsUpper = bytes "QUERY" then .queryString
  else if argsUpper = bytes "URL" then .bodyUrl
  else if argsUpper = bytes "*" ∨ argsUpper = bytes "ANY" then .any
  else if argsUpper = bytes "BODY" then .bodyAny
  else .none

/-- An attribute that must be the text `true`. -/
def isTrue (e : XMLElement) (key : String) : Bool :=
  e.attributeOf (bytes key) == some (bytes "true")

/-- A role attribute and what stands in for an empty one. -/
def roleOr (e : XMLElement) (key : String) (fallback : Bytes) : Bytes :=
  let role := attributeOrEmpty e key
  if role.isEmpty then fallback else role

/-- The method a `Route` element describes, less its limiter. -/
def routeMethod (contentPath : Bytes) (route : XMLElement) :
    EndpointMethod :=
  let resource :=
    match route.attributeOf (bytes "script") with
    | none => []
    | some script => contentPath ++ bytes "/" ++ script
  let isProtected := isTrue route "protected"
  let isAuthenticator := isTrue route "authenticator"
  { m := methodStrToEnum (attributeOrEmpty route "method")
    resource := resource
    hasScript := !resource.isEmpty
    isProtected := isProtected
    accessRole :=
      if isProtected then roleOr route "access_role" adminRole
      else viewerRole
    isAuthenticator := isAuthenticator
    authRole :=
      if isAuthenticator then roleOr route "auth_role" viewerRole else []
    args :=
      match route.attributeOf (bytes "args") with
      | none => .none
      | some args => argStrToEnum args }

/-- The limiter of a `Route` element. -/
def loadRouteLimiter (route : XMLElement) :
    Except Abort (Option Limiter) :=
  match route.firstChildElement (bytes "RateLimit") with
  | none => .ok none
  | some rateLimitEl => do
      let (l, _) ← loadLimiter rateLimitEl
      return some l

/-- The body of the `while` of `loadRoutes`. -/
def loadRoute (contentPath : Bytes) (router : Router) (route : XMLElement) :
    Except Abort Router :=
  let method := routeMethod contentPath route
  let endpointUrl := attributeOrEmpty route "endpoint"
  let endpointUrl :=
    if endpointUrl.isEmpty then bytes "/" else endpointUrl
  if method.m ≠ .notAllowed then do
    let rateLimiter ← loadRouteLimiter route
    orThrow (router.updateEndpoint endpointUrl
      { method with rateLimiter := rateLimiter })
  else .ok router

/-- `loadRoutes`. -/
def loadRoutes (contentPath : Bytes) (serverConfig : XMLElement)
    (router : Router) : Except Abort Router :=
  match serverConfig.firstChildElement (bytes "Routes") with
  | none => .ok router
  | some routes =>
      (routes.childElements (bytes "Route")).foldlM (loadRoute contentPath)
        router

-- ================================================================ server

/-- What the configuration leaves to serve with. -/
structure Server where
  pipeline : List Component
  router : Router

/-- `Config::initialize`, as far as it concerns serving: the error pages
are in the table before the routes. -/
def initializeServer (contentPath : Bytes) (serverConfig : XMLElement)
    (errorPages : AList fun _ : Code => Bytes) : Except Abort Server := do
  let router ← loadRoutes contentPath serverConfig
    { Router.initial with errorPages := errorPages }
  let pipeline ← loadPipeline serverConfig
  return { pipeline := pipeline, router := router }

/-- The server of an empty configuration: the default limiter, and the
root endpoint. -/
def emptyServer : Server where
  pipeline := [.logger, .errorHandler, .limiter (.fixedWindow {}), .parser,
    .rateLimiter, .authenticator]
  router := Router.initial

theorem initializeServer_empty :
    initializeServer [] (.mk [] [] []) ∅ = .ok emptyServer := rfl

/-- A session on a server: the transaction it ends with. -/
def Server.serve (srv : Server) (env : Env) : Txn :=
  transact env srv.pipeline srv.router

/-- The server behind a sequence of sessions: each leaves the router to
the next as its lookups have left it. -/
def Server.after (srv : Server) : List Env → Server
  | [] => srv
  | env :: envs =>
      Server.after { srv with router := (srv.serve env).router } envs

end CgiWebServer
