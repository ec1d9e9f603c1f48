/-
The start-up (config.cpp, `Config::initialize`).

`Machine` is what the start-up asks the machine for. The members are
loaded in the order of the source; the first `FATAL` or exception ends
it. The router, the pipeline and the configuration are singletons there
and fields of one structure here.
-/
import CgiWebServer.Startup.Secret
import CgiWebServer.Lib.Loads

namespace CgiWebServer

/-- What the start-up finds: the parsed document or the error of
`LoadFile`, and the answers of the calls it makes. -/
structure Machine where
  loadFile : Except Failure (List XMLElement)
  chdir : Bytes → Option Failure := fun _ => none
  realpath : Bytes → Option Bytes := fun _ => none
  createDirectories : Bytes → Option Bytes := fun _ => none
  secretFile : Bytes → SecretFile := fun _ => {}
  randBytes : (len : Nat) → Option (Buffer len) := fun _ => none
  hardwareConcurrency : Nat := 0
  resolve : Except Bytes (List (Bool × Bytes)) := .ok []

/-- `cfg::SSLConfig`. -/
structure SSLConfig where
  active : Bool := false
  keyPath : Bytes := []
  certificatePath : Bytes := []

/-- `cfg::Config`, with the router and the pipeline it fills. -/
structure Config where
  contentPath : Bytes
  hostName : Bytes
  logPath : Bytes
  secret : Bytes
  port : Int
  threadCount : Nat
  roles : Roles
  ssl : SSLConfig
  hostAddress : Bytes
  server : Server

/-- A `GetText` that is assigned to a `std::string`. -/
def getText (e : XMLElement) : Except Abort Bytes :=
  match e.text with
  | none => .error .nullText
  | some text => .ok text

-- ============================================================== documents

/-- `LoadFile`, and the check for a `ServerConfig` element. -/
def loadDocument (machine : Machine) : Except Abort XMLElement :=
  match machine.loadFile with
  | .error e =>
      .error (.fatal (bytes "loading configuration failed [error="
        ++ toStr e.number ++ bytes " " ++ e.text ++ bytes "]"))
  | .ok elements =>
      match elements.find? fun e => e.name == bytes "ServerConfig" with
      | none =>
          .error (.fatal (bytes "loading configuration: no ServerConfig "
            ++ bytes "element, must provide <ServerConfig></ServerConfig> "
            ++ bytes "to load configuration from"))
      | some serverConfig => .ok serverConfig

/-- The `WebDirectory`, and the change to it. -/
def loadWebDirectory (machine : Machine) (serverConfig : XMLElement) :
    Except Abort Bytes :=
  match (serverConfig.firstChildElement (bytes "WebDirectory")).bind
      (·.text) with
  | none =>
      fatal "loading configuration failed: no web directory to serve from"
  | some contentPath =>
      match machine.chdir (cStr contentPath) with
      | some e =>
          .error (.fatal (bytes "failed to chdir to web directory("
            ++ cStr contentPath ++ bytes "): [error=" ++ toStr e.number
            ++ bytes " " ++ e.text ++ bytes "]"))
      | none => .ok contentPath

/-- `NO_HOST_NAME`. -/
def noHostName : Bytes := bytes "server"

/-- The `Host`. -/
def loadHost (serverConfig : XMLElement) : Except Abort Bytes :=
  match serverConfig.firstChildElement (bytes "Host") with
  | none => .ok noHostName
  | some host => getText host

/-- `resolve_log_path`. -/
def resolveLogPath (machine : Machine) (path : Bytes) :
    Except Abort Bytes :=
  let logDir := (machine.realpath (cStr path)).getD (bytes "log")
  match machine.createDirectories logDir with
  | some what => .error (.threw (.std what))
  | none => .ok logDir

/-- The `LogDirectory`. -/
def loadLogPath (machine : Machine) (serverConfig : XMLElement) :
    Except Abort Bytes :=
  resolveLogPath machine
    (((serverConfig.firstChildElement (bytes "LogDirectory")).bind
      (·.text)).getD (bytes "./log"))

-- ======================================================= ports and threads

/-- The `Port`. -/
def loadPort (serverConfig : XMLElement) : Except Abort Int :=
  match serverConfig.firstChildElement (bytes "Port") with
  | none => .ok 80
  | some hostPort => do
      let text ← getText hostPort
      match stoi text with
      | none => .error (.threw (.std (bytes "stoi")))
      | some port => .ok port

/-- `loadThreads`. `std::from_chars` takes digits only, and none or more
than a `std::size_t` holds are errors. -/
def loadThreads (hardwareConcurrency : Nat) (serverConfig : XMLElement) :
    Nat :=
  let fallback := 4
  match serverConfig.firstChildElement (bytes "Threads") with
  | none =>
      if hardwareConcurrency = 0 then fallback else hardwareConcurrency
  | some threadsEl =>
      let digits := (threadsEl.text.getD []).takeWhile isDigit
      let count := digitsVal digits
      if digits.isEmpty ∨ 2 ^ 64 ≤ count ∨ count = 0 then fallback
      else count

-- ============================================================ error pages

/-- `code_str_to_enum`. -/
def codeStrToEnum (codeStr : Option Bytes) : Code :=
  match codeStr.bind stoi with
  | none => .notAStatus
  | some numericCode => ⟨numericCode⟩

/-- The body of the `while` of `loadErrorPages`. -/
def loadErrorPage (router : Router) (errorPg : XMLElement) : Router :=
  let status := codeStrToEnum (errorPg.attributeOf (bytes "code"))
  let file := attributeOrEmpty errorPg "file"
  if status = .notAStatus ∨ file.isEmpty then router
  else router.addErrorPage status file

/-- The first child of the name `sibling` behind the first child of the
name `n`: `NextSiblingElement` of that child. -/
def XMLElement.siblingOfFirst : XMLElement → Bytes → Bytes →
    Option XMLElement
  | mk _ _ children _, n, sibling =>
      ((children.dropWhile fun c => c.name != n).drop 1).find? fun c =>
        c.name == sibling

/-- `loadErrorPages`. The loop goes on with the sibling of the
`ErrorPages` element, not of the page it has loaded: behind the first
page it is done where there is no such sibling, and otherwise it loads
that sibling for ever. -/
def loadErrorPages (serverConfig : XMLElement) (router : Router) :
    Except Abort Router :=
  match (serverConfig.firstChildElement (bytes "ErrorPages")).bind
      (·.firstChildElement (bytes "ErrorPage")) with
  | none => .ok router
  | some errorPg =>
      match serverConfig.siblingOfFirst (bytes "ErrorPages")
          (bytes "ErrorPage") with
      | none => .ok (loadErrorPage router errorPg)
      | some _ => .error .endless

/-- The `while` of `loadErrorPages` itself, with fuel for its turns:
`sibling` is where `NextSiblingElement` leads from the `ErrorPages`
element, whatever page was loaded. -/
def errorPagesLoop (sibling : Option XMLElement) :
    Nat → Option XMLElement → Router → Option Router
  | _, none, router => some router
  | 0, some _, _ => none
  | fuel + 1, some errorPg, router =>
      errorPagesLoop sibling fuel sibling (loadErrorPage router errorPg)

/-- The `while` from the first page on. -/
def runErrorPages (serverConfig : XMLElement) (fuel : Nat)
    (router : Router) : Option Router :=
  errorPagesLoop
    (serverConfig.siblingOfFirst (bytes "ErrorPages") (bytes "ErrorPage"))
    fuel
    ((serverConfig.firstChildElement (bytes "ErrorPages")).bind
      (·.firstChildElement (bytes "ErrorPage"))) router

/-- Where there is a sibling to go on with, the loop never ends. -/
theorem errorPagesLoop_endless (sibling : XMLElement) (fuel : Nat) :
    ∀ (errorPg : XMLElement) (router : Router),
      errorPagesLoop (some sibling) fuel (some errorPg) router = none := by
  induction fuel with
  | zero =>
      intro errorPg router
      rfl
  | succ fuel ih =>
      intro errorPg router
      exact ih sibling (loadErrorPage router errorPg)

/-- `loadErrorPages` says how the loop ends. -/
theorem loadErrorPages_eq_ok_iff {serverConfig : XMLElement}
    {router router' : Router} :
    loadErrorPages serverConfig router = .ok router'
      ↔ ∃ fuel, runErrorPages serverConfig fuel router = some router' := by
  unfold loadErrorPages runErrorPages
  -- No page, one page, or a sibling behind ErrorPages itself, at which the
  -- cursor never ends.
  cases (serverConfig.firstChildElement (bytes "ErrorPages")).bind
      (·.firstChildElement (bytes "ErrorPage")) with
  | none =>
      constructor
      · intro h
        exact ⟨0, congrArg some (Except.ok.inj h)⟩
      · rintro ⟨fuel, h⟩
        cases fuel <;> exact congrArg Except.ok (Option.some.inj h)
  | some errorPg =>
      cases serverConfig.siblingOfFirst (bytes "ErrorPages")
          (bytes "ErrorPage") with
      | none =>
          constructor
          · intro h
            exact ⟨1, congrArg some (Except.ok.inj h)⟩
          · rintro ⟨fuel, h⟩
            cases fuel with
            | zero => cases h
            | succ fuel =>
                cases fuel <;> exact congrArg Except.ok (Option.some.inj h)
      | some sibling =>
          constructor
          · intro h
            cases h
          · rintro ⟨fuel, h⟩
            rw [errorPagesLoop_endless] at h
            cases h

-- ==================================================================== ssl

/-- `loadSSL`, with the port it leaves. -/
def loadSSL (serverConfig : XMLElement) (port : Int) :
    Except Abort (SSLConfig × Int) :=
  match serverConfig.firstChildElement (bytes "SSL") with
  | none => .ok ({}, port)
  | some sslConfig =>
      match sslConfig.firstChildElement (bytes "Certificate") with
      | none => fatal "loading configuration: ssl certificate not found"
      | some cert => do
          let certificatePath ← getText cert
          match sslConfig.firstChildElement (bytes "PrivateKey") with
          | none => fatal "loading configuration: private key not found"
          | some key => do
              let keyPath ← getText key
              return ({ active := true, keyPath := keyPath,
                        certificatePath := certificatePath },
                if port = 80 then 443 else port)

/-- `loadHostIP`: the first address that is v4. -/
def loadHostIP (machine : Machine) : Except Abort Bytes :=
  match machine.resolve with
  | .error what => .error (.threw (.std what))
  | .ok endpoints =>
      match endpoints.find? (·.1) with
      | none => .ok (bytes "127.0.0.1")
      | some endpoint => .ok endpoint.2

-- ============================================================= initialize

/-- What `initialize` loads from the `ServerConfig` element. -/
def loadConfig (machine : Machine) (serverConfig : XMLElement) :
    Except Abort Config := do
  let contentPath ← loadWebDirectory machine serverConfig
  let hostName ← loadHost serverConfig
  let logPath ← loadLogPath machine serverConfig
  let secret ← loadJwtSecret machine.secretFile machine.randBytes
    serverConfig
  let port ← loadPort serverConfig
  let router ← loadErrorPages serverConfig Router.initial
  let roles ← loadRoles serverConfig
  let (ssl, port) ← loadSSL serverConfig port
  let router ← loadRoutes contentPath serverConfig
    { Router.initial with errorPages := router.errorPages }
  let hostAddress ← loadHostIP machine
  let pipeline ← loadPipeline serverConfig
  return {
    contentPath := contentPath
    hostName := hostName
    logPath := logPath
    secret := secret
    port := port
    threadCount := loadThreads machine.hardwareConcurrency serverConfig
    roles := roles
    ssl := ssl
    hostAddress := hostAddress
    server := { pipeline := pipeline, router := router } }

/-- `Config::initialize`. -/
def initializeConfig (machine : Machine) : Except Abort Config := do
  let serverConfig ← loadDocument machine
  loadConfig machine serverConfig

-- =============================================================== sessions

/-- jwt-cpp, as the authenticator calls it: signing a token of a role
claim and an expiry, and decoding and verifying one, at a time. -/
structure Jwt where
  sign : (secret issuer role : Bytes) → (expiresAt : Int) → Bytes
  verify : (secret issuer : Bytes) → (now : Int) → (token : Bytes) →
    Except Bytes Token

/-- `DEFAULT_EXPIRATION`: an hour from now. -/
def defaultExpiration (now : Int) : Int := now + 3600

/-- What a session at a time finds in the configuration. -/
def Config.sessionEnv (config : Config) (jwt : Jwt) (now : Int)
    (env : Env) : Env :=
  { env with
    now := now
    roles := config.roles
    jwt := jwt.verify config.secret config.hostName now
    mint := fun role => jwt.sign config.secret config.hostName role
      (defaultExpiration now) }

-- ================================================================= inversion

/-- What a start-up that is through has loaded from its document. -/
structure Loaded (machine : Machine) (serverConfig : XMLElement)
    (config : Config) : Prop where
  secret : loadJwtSecret machine.secretFile machine.randBytes serverConfig
    = .ok config.secret
  roles : loadRoles serverConfig = .ok config.roles
  server : ∃ errorPages, initializeServer config.contentPath serverConfig
    errorPages = .ok config.server

/-- A start-up that is through has loaded every member. -/
theorem loaded_of_initializeConfig {machine : Machine}
    {serverConfig : XMLElement} {config : Config}
    (hdocument : loadDocument machine = .ok serverConfig)
    (h : initializeConfig machine = .ok config) :
    Loaded machine serverConfig config := by
  obtain ⟨serverConfig', hdocument', h⟩ := Loads.bind_ok h
  obtain rfl : serverConfig' = serverConfig :=
    Except.ok.inj (hdocument'.symm.trans hdocument)
  obtain ⟨contentPath, -, h⟩ := Loads.bind_ok h
  obtain ⟨hostName, -, h⟩ := Loads.bind_ok h
  obtain ⟨logPath, -, h⟩ := Loads.bind_ok h
  obtain ⟨secret, hsecret, h⟩ := Loads.bind_ok h
  obtain ⟨port, -, h⟩ := Loads.bind_ok h
  obtain ⟨router, -, h⟩ := Loads.bind_ok h
  obtain ⟨roles, hroles, h⟩ := Loads.bind_ok h
  obtain ⟨⟨ssl, port'⟩, -, h⟩ := Loads.bind_ok h
  obtain ⟨router', hroutes, h⟩ := Loads.bind_ok h
  obtain ⟨hostAddress, -, h⟩ := Loads.bind_ok h
  obtain ⟨pipeline, hpipeline, h⟩ := Loads.bind_ok h
  cases h
  refine ⟨hsecret, hroles, router.errorPages, ?_⟩
  simp only [initializeServer, hroutes, hpipeline, bind, Except.bind]
  rfl

end CgiWebServer
