/-
No client gets beyond the roles the configuration hands out.

A token is as good as the role it names, and a session mints one only
where its gate let the request through. A gate that stops has minted
nothing (`refuses_gate`), because minting is the last thing it does. So
the tokens of a run come about by the rules of `Obtainable`: one needs
none for an open login, and for a login that is itself protected a token
that was minted before. If tokens cannot be forged, whatever sequence of
requests a client makes, a protected handler runs only with a token of
such a role, within its hour.
-/
import CgiWebServer.Lib.Contract
import CgiWebServer.Lib.Steps
import CgiWebServer.Proofs.Authorization
import CgiWebServer.Proofs.MintedTokens
import CgiWebServer.Proofs.Parsing

namespace CgiWebServer

open Process

-- ======================================================= refused requests

/-- Nothing has happened in a transaction. -/
def Eventless (s : Txn) : Prop := s.trace = []

/-- A part of the gate that stops only while nothing has happened. -/
abbrev StopsEventless (a : Act Unit) : Prop :=
  Proc.Contract Eventless a (fun _ _ => True) fun _ => Eventless

section Gate

variable {env : Env}

theorem refuses_limiter (view : LimitView) (l : Limiter) {next : Act Unit}
    (hnext : StopsEventless next) :
    StopsEventless (l.process env view next) := by
  have hadmitted : ∀ f, StopsEventless (modifyResponse f >>= fun _ => next) :=
    fun f => Proc.contract_bind (M := fun _ => Eventless)
      (Proc.contract_modify fun _ hs => hs) fun _ => hnext
  cases l with
  | fixedWindow fw =>
      refine Proc.contract_read fun txn =>
        Proc.contract_ofExcept_bind (fun key _ => ?_) fun _ _ _ hs => hs
      split
      · exact Proc.contract_raise fun _ hs => hs
      · dsimp only
        split
        · exact Proc.contract_raise fun _ hs => hs
        · exact Proc.contract_raise fun _ hs => hs
        · exact hadmitted _
  | tokenBucket tb =>
      refine Proc.contract_read fun txn =>
        Proc.contract_ofExcept_bind (fun key _ => ?_) fun _ _ _ hs => hs
      dsimp only
      split
      · exact Proc.contract_raise fun _ hs => hs
      · exact Proc.contract_raise fun _ hs => hs
      · exact hadmitted _

theorem refuses_limiters {rest : List Component}
    (hrest : StopsEventless (runPipeline env rest)) (ls : List Limiter) :
    StopsEventless (runPipeline env (ls.map .limiter ++ rest)) := by
  induction ls with
  | nil => exact hrest
  | cons l ls ih => exact refuses_limiter _ l ih

theorem refuses_parserProcess {next : Act Unit} (hnext : StopsEventless next) :
    StopsEventless (parserProcess env next) := by
  intro s hs
  by_cases hread : env.readEc = .ok
  · rcases parse_cases env env.buffer s.router with
      ⟨e, hfails⟩ | ⟨request, router', hreads⟩
    · obtain ⟨_, hthrows⟩ := parser_throws hread s hfails
      rw [hthrows next]
      exact hs
    · rw [parser_stores hread s next hreads]
      exact hnext _ hs
  · rw [parserProcess, if_pos hread]
    exact hs

theorem refuses_derefPtr {α : Type} {p : Option α} {f : α → Act Unit}
    (h : ∀ x, StopsEventless (f x)) : StopsEventless (derefPtr p >>= f) := by
  cases p with
  | none => exact fun s hs => hs
  | some x => exact h x

theorem refuses_rateLimiter {next : Act Unit} (hnext : StopsEventless next) :
    StopsEventless (rateLimiterProcess env next) := by
  refine Proc.contract_read fun txn => refuses_derefPtr fun route => ?_
  split
  · exact refuses_limiter _ _ hnext
  · exact hnext

/-- Minting is the last step, and nothing throws behind it. -/
theorem refuses_mintToken : StopsEventless (mintToken env) := by
  refine Proc.contract_read fun txn => ?_
  split
  · exact Proc.contract_raise fun _ hs => hs
  · refine refuses_derefPtr fun endpoint =>
      Proc.contract_ofExcept_bind (fun role _ => ?_) fun _ _ _ hs => hs
    exact fun _ _ => True.intro

theorem refuses_authenticator :
    StopsEventless (authenticatorProcess env (pure ())) := by
  refine Proc.contract_read fun txn => refuses_derefPtr fun route =>
    Proc.contract_ofExcept_bind (fun _ _ => ?_) fun _ _ _ hs => hs
  show StopsEventless (if route.isAuthenticator then mintToken env else pure ())
  split
  · exact refuses_mintToken
  · exact fun _ _ => True.intro

/-- A gate that stops has minted nothing. -/
theorem refuses_gate (before after : List Limiter) :
    StopsEventless (runPipeline env (gateComponents before after)) := by
  have htail : StopsEventless
      (runPipeline env [.rateLimiter, .authenticator]) :=
    refuses_rateLimiter refuses_authenticator
  have hparsed : StopsEventless (runPipeline env
      (.parser :: (after.map .limiter ++ [.rateLimiter, .authenticator]))) :=
    refuses_parserProcess (refuses_limiters htail after)
  exact refuses_limiters hparsed before

end Gate

theorem jwtCookie_inj {token token' : Bytes} :
    jwtCookie token = jwtCookie token' ↔ token = token' := by
  unfold jwtCookie
  rw [List.append_left_inj, List.append_right_inj]

/-- A session that has minted a token has passed its gate at an
authenticator, and the token is of that entry's role. -/
theorem passed_of_minted {env : Env} {before after : List Limiter}
    {srv : Server}
    (hpipeline : srv.pipeline
      = .logger :: .errorHandler :: gateComponents before after)
    {cookie : Bytes} (h : .minted cookie ∈ (srv.serve env).trace) :
    ∃ s₁ entry, Passed env before after { router := srv.router } s₁ entry
      ∧ entry.isAuthenticator = true ∧ cookie = tokenOf env entry := by
  rcases serve_answered env hpipeline with
    ⟨stop, s₁, hrun, hanswered⟩ | ⟨s₁, entry, -, hpassed, hanswered⟩
  · obtain ⟨-, -, pages, htrace, hpages⟩ := hanswered.emits
    have hstart : Eventless { router := srv.router } := rfl
    have hnone : s₁.trace = [] :=
      (refuses_gate before after).stopped hstart hrun
    rw [htrace, hnone] at h
    cases hpages _ h
  · obtain ⟨-, -, pages, htrace, hpages⟩ := hanswered.emits
    obtain ⟨-, -, own, hown, hevents⟩ := finish_events env hpassed.routed
    rw [htrace, hown] at h
    simp only [List.mem_append, List.mem_map] at h
    rcases h with ((h | ⟨_, -, h⟩) | h) | h
    · rcases hpassed.minted with ⟨-, hnone⟩ | ⟨hauth, _, -, hone⟩
      · rw [hnone] at h
        cases h
      · rw [hone] at h
        cases List.mem_singleton.mp h
        exact ⟨s₁, entry, hpassed, hauth, rfl⟩
    · cases h
    · cases hevents _ h
    · cases hpages _ h

-- ========================================================== what is handed out

/-- The roles a client can come by, one step after the other: of an open
login, and of a login behind a role it has come by. -/
inductive Obtainable (roles : Roles) (r : Router) : Bytes → Prop
  | login {p : RoutePtr} {entry : EndpointMethod} :
      r.derefRoute p = some entry → entry.isAuthenticator = true →
      entry.isProtected = false → Obtainable roles r entry.authRole
  | exchange {held : Bytes} {role : Role} {p : RoutePtr}
      {entry : EndpointMethod} : Obtainable roles r held →
      roles.findRole held = some role →
      role.includesRole entry.accessRole = true →
      r.derefRoute p = some entry → entry.isAuthenticator = true →
      Obtainable roles r entry.authRole

/-- The entries a lookup adds hand out nothing. -/
theorem defaultEndpoint_open {endpoint : Bytes} {ep : Endpoint} {m : Method}
    {entry : EndpointMethod}
    (hep : Router.defaultEndpoint endpoint = .ok ep)
    (hentry : ep.methods.lookup m = some entry) :
    entry.isAuthenticator = false := by
  cases hep
  cases m with
  | get | head =>
      cases hentry
      rfl
  | post | options | notAllowed => cases hentry

/-- An authenticator that is found was configured. -/
theorem configured_authenticator {r r' : Router} (h : Grown r r')
    {p : RoutePtr} {entry : EndpointMethod}
    (hentry : r'.derefRoute p = some entry)
    (hauth : entry.isAuthenticator = true) : r.derefRoute p = some entry := by
  obtain ⟨ep, hep, hmethod⟩ := Option.bind_eq_some_iff.mp hentry
  rcases h.fresh p.endpoint ep hep with hold | hnew
  · rw [Router.derefRoute, Router.deref, hold]
    exact hmethod
  · rw [defaultEndpoint_open hnew hmethod] at hauth
    cases hauth

-- ================================================================ sessions

/-- A connection, at its time. -/
structure Arrival where
  now : Int
  env : Env

/-- The token in a request's cookies. -/
def shownToken (headers : Headers) : Bytes :=
  extractJwtFromCookie
    (Request.getHeader { headers := headers } (bytes "Cookie"))

namespace Config

variable (config : Config) (jwt : Jwt)

/-- What a session on the connection finds. -/
def arrivalEnv (v : Arrival) : Env := config.sessionEnv jwt v.now v.env

/-- The server behind a sequence of them. -/
def serverAfter (earlier : List Arrival) : Server :=
  config.server.after (earlier.map (config.arrivalEnv jwt))

/-- One of them, behind those before it. -/
def session (earlier : List Arrival) (v : Arrival) : Txn :=
  (config.serverAfter jwt earlier).serve (config.arrivalEnv jwt v)

/-- The cookie of a token of a role that is minted at a time. -/
def minted (role : Bytes) (now : Int) : Bytes :=
  jwtCookie (jwt.sign config.secret config.hostName role
    (defaultExpiration now))

/-- One of the sessions has minted the token. -/
def Issued (earlier : List Arrival) (token : Bytes) : Prop :=
  ∃ older w newer, earlier = older ++ w :: newer
    ∧ .minted (jwtCookie token) ∈ (config.session jwt older w).trace

/-- Nobody else can: a token that a connection shows and that verifies was
minted before. -/
def Unforged (earlier : List Arrival) (v : Arrival) : Prop :=
  ∀ headers decoded, extractHeaders v.env.buffer = .ok headers →
    jwt.verify config.secret config.hostName v.now (shownToken headers)
        = .ok decoded →
    config.Issued jwt earlier (shownToken headers)

/-- All that a session mints is of a role that can be come by. -/
def MintsObtainable (earlier : List Arrival) (v : Arrival) : Prop :=
  ∀ cookie, .minted cookie ∈ (config.session jwt earlier v).trace →
    ∃ role, Obtainable config.roles config.server.router role
      ∧ cookie = config.minted jwt role v.now

end Config

/-- A token that verifies says what it was signed with. -/
def Jwt.ReadsBack (jwt : Jwt) (secret issuer : Bytes) : Prop :=
  ∀ role expiresAt now decoded,
    jwt.verify secret issuer now (jwt.sign secret issuer role expiresAt)
        = .ok decoded →
      decoded = { expiresAt := some expiresAt, role := some role }

section Run

variable {config : Config} {jwt : Jwt} {before after : List Limiter}
  {earlier : List Arrival} {v : Arrival}

theorem grown_serverAfter (jwt : Jwt)
    (hpipeline : config.server.pipeline
      = .logger :: .errorHandler :: gateComponents before after)
    (earlier : List Arrival) :
    (config.serverAfter jwt earlier).pipeline
        = .logger :: .errorHandler :: gateComponents before after
      ∧ Grown config.server.router (config.serverAfter jwt earlier).router := by
  obtain ⟨hsame, hgrown⟩ := grown_after hpipeline
    (earlier.map (config.arrivalEnv jwt))
  exact ⟨hsame.trans hpipeline, hgrown⟩

/-- Behind sessions that mint what can be come by, a protected entry lets
in with such a token only, within its hour. -/
theorem validated_obtainable
    (hjwt : jwt.ReadsBack config.secret config.hostName)
    (hminted : Steps.Every (config.MintsObtainable jwt) earlier)
    (hunforged : config.Unforged jwt earlier v) {argType : ArgType}
    {request : Request} {entry : EndpointMethod}
    (haccepts : ParserAccepts (config.arrivalEnv jwt v) argType request)
    (hvalidated : Validated (config.arrivalEnv jwt v) request entry)
    (hprotected : entry.isProtected = true) :
    ∃ held role older w newer,
      Obtainable config.roles config.server.router held
        ∧ config.roles.findRole held = some role
        ∧ role.includesRole entry.accessRole = true
        ∧ earlier = older ++ w :: newer
        ∧ .minted (config.minted jwt held w.now)
          ∈ (config.session jwt older w).trace
        ∧ v.now ≤ defaultExpiration w.now := by
  obtain ⟨_, decoded, held, role, rfl, -, hverified, hlive, hheld, hrole,
    hincludes⟩ := hvalidated hprotected
  change jwt.verify _ _ _ (shownToken request.headers) = _ at hverified
  obtain ⟨older, w, newer, hsplit, hcookie⟩ :=
    hunforged request.headers decoded haccepts.headers hverified
  obtain ⟨signed, hobtainable, hsigned⟩ :=
    hminted older w newer hsplit _ hcookie
  -- what was decoded is what the earlier session signed
  have htoken' := jwtCookie_inj.mp hsigned
  rw [htoken'] at hverified
  obtain rfl := hjwt _ _ _ _ hverified
  obtain rfl := Option.some.inj hheld
  rw [hsigned] at hcookie
  exact ⟨signed, role, older, w, newer, hobtainable, hrole, hincludes, hsplit,
    hcookie, hlive _ rfl⟩

/-- A session keeps it so. -/
theorem mintsObtainable_step
    (hpipeline : config.server.pipeline
      = .logger :: .errorHandler :: gateComponents before after)
    (hjwt : jwt.ReadsBack config.secret config.hostName)
    (hminted : Steps.Every (config.MintsObtainable jwt) earlier)
    (hunforged : config.Unforged jwt earlier v) :
    config.MintsObtainable jwt earlier v := by
  intro cookie hcookie
  obtain ⟨hlater, hgrown⟩ := grown_serverAfter jwt hpipeline earlier
  obtain ⟨s₁, entry, hpassed, hauth, rfl⟩ := passed_of_minted hlater hcookie
  have hgrown' := hgrown.trans (grown_getEndpoint hpassed.lookup).2.1
  have hentry := configured_authenticator hgrown' hpassed.routed.entry hauth
  refine ⟨entry.authRole, ?_, rfl⟩
  cases hprotected : entry.isProtected with
  | false => exact .login hentry hauth hprotected
  | true =>
      obtain ⟨held, role, -, -, -, hheld, hrole, hincludes, -⟩ :=
        validated_obtainable hjwt hminted hunforged hpassed.accepts
          hpassed.validated hprotected
      exact .exchange hheld hrole hincludes hentry hauth

/-- So do all of them. -/
theorem mintsObtainable_all
    (hpipeline : config.server.pipeline
      = .logger :: .errorHandler :: gateComponents before after)
    (hjwt : jwt.ReadsBack config.secret config.hostName)
    (hunforged : Steps.Every (config.Unforged jwt) earlier) :
    Steps.Every (config.MintsObtainable jwt) earlier := by
  induction earlier using List.reverseRecOn with
  | nil => exact Steps.every_nil
  | append_singleton earlier v ih =>
      obtain ⟨hearlier, hlast⟩ := Steps.every_snoc.mp hunforged
      have hminted := ih hearlier
      exact Steps.every_snoc.mpr ⟨hminted,
        mintsObtainable_step hpipeline hjwt hminted hlast⟩

end Run

/-- For every configuration that loads and every sequence of connections,
at any times, that show no forged tokens: a protected handler runs only
for a client that shows a token an earlier session has minted within the
hour, of a role that includes the entry's access role and that the
configuration's logins hand out. -/
theorem no_escalation {machine : Machine} {config : Config}
    (h : initializeConfig machine = .ok config) {jwt : Jwt}
    (hjwt : jwt.ReadsBack config.secret config.hostName)
    {earlier : List Arrival} {v : Arrival}
    (hunforged : Steps.Every (config.Unforged jwt) (earlier ++ [v]))
    {kind : HandlerKind}
    (hran : .handler kind ∈ (config.session jwt earlier v).trace) :
    ∃ entry,
      Authorized (config.arrivalEnv jwt v) (config.serverAfter jwt earlier)
          (config.session jwt earlier v) kind entry
        ∧ (entry.isProtected = true →
          ∃ held role older w newer,
            Obtainable config.roles config.server.router held
              ∧ config.roles.findRole held = some role
              ∧ role.includesRole entry.accessRole = true
              ∧ earlier = older ++ w :: newer
              ∧ .minted (config.minted jwt held w.now)
                ∈ (config.session jwt older w).trace
              ∧ v.now ≤ defaultExpiration w.now) := by
  obtain ⟨serverConfig, hdocument, -⟩ := Loads.bind_ok h
  have hloaded := loaded_of_initializeConfig hdocument h
  obtain ⟨errorPages, hserver⟩ := hloaded.server
  obtain ⟨before, after, hpipeline, hip⟩ := initializeServer_gate hserver
  obtain ⟨hlater, -⟩ := grown_serverAfter jwt hpipeline earlier
  obtain ⟨hearlier, hlast⟩ := Steps.every_snoc.mp hunforged
  obtain ⟨entry, hauthorized⟩ := (serve_authorized _ hlater hip).2 kind hran
  exact ⟨entry, hauthorized, validated_obtainable hjwt
    (mintsObtainable_all hpipeline hjwt hearlier) hlast hauthorized.accepts
    hauthorized.validated⟩

/-- jwt-cpp, on the one token that is minted in it. -/
def editorJwt : Jwt where
  sign _ _ role expiresAt :=
    if role = bytes "editor" ∧ expiresAt = 1700003600 then
      clientToken editorClaims
    else []
  verify := (clientJwt "editor" editorClaims).verify

/-- A login, -/
def loginArrival : Arrival where
  now := 1700000000
  env := {
    readData := bytes "POST /login HTTP/1.1\r\nHost: localhost\r\n\r\n"
    globalLimit := { exchanges := [⟨true, 0⟩, ⟨false, 1⟩] } }

/-- and a minute later the request that shows its token. -/
def editorArrival : Arrival where
  now := 1700000060
  env := {
    readData := bytes "GET /my_api HTTP/1.1\r\nCookie: jwt="
      ++ clientToken editorClaims ++ crlfcrlf
    globalLimit := { exchanges := [⟨true, 0⟩, ⟨false, 1⟩] } }

theorem editorJwt_readsBack (secret issuer : Bytes) :
    editorJwt.ReadsBack secret issuer := by
  intro role expiresAt now decoded h
  have hverify : ∀ token, editorJwt.verify secret issuer now token
      = if token = clientToken editorClaims ∧ now < 1700003600 then
          .ok { expiresAt := some 1700003600, role := some (bytes "editor") }
        else .error (bytes "token verification failed") := fun _ => rfl
  by_cases hsigned : role = bytes "editor" ∧ expiresAt = 1700003600
  · obtain ⟨rfl, rfl⟩ := hsigned
    rw [hverify] at h
    split at h
    next => exact (Except.ok.inj h).symm
    next => cases h
  · have hempty : editorJwt.sign secret issuer role expiresAt = [] :=
      if_neg hsigned
    rw [hempty] at h
    cases h

/-- What the two connections show. -/
theorem loginArrival_shows :
    (extractHeaders loginArrival.env.buffer).map shownToken = .ok [] := rfl

theorem editorArrival_shows :
    (extractHeaders editorArrival.env.buffer).map shownToken
      = .ok (clientToken editorClaims) := by decide +kernel

set_option maxRecDepth 8000 in
/-- The editor is let in by the token of the login. -/
theorem no_escalation_editor :
    ∃ config entry,
      initializeConfig (clientMachine [editorRole] "editor" "viewer")
          = .ok config
        ∧ Authorized (config.arrivalEnv editorJwt editorArrival)
          (config.serverAfter editorJwt [loginArrival])
          (config.session editorJwt [loginArrival] editorArrival) .get
          entry := by
  obtain ⟨config, hinit, hissued, hran⟩ :
      ∃ config,
        initializeConfig (clientMachine [editorRole] "editor" "viewer")
            = .ok config
          ∧ (config.session editorJwt [] loginArrival).trace.head?
            = some (.minted (jwtCookie (clientToken editorClaims)))
          ∧ (config.session editorJwt [loginArrival]
              editorArrival).trace.head? = some (.handler .get) :=
    ⟨_, rfl, rfl, rfl⟩
  -- The login shows no token that verifies, so it owes nothing.
  have hlogin : config.Unforged editorJwt [] loginArrival := by
    intro headers decoded hheaders hverified
    have hshows := loginArrival_shows
    rw [hheaders] at hshows
    rw [Except.ok.inj hshows] at hverified
    cases hverified
  -- The second session shows the token that the first was given.
  have heditor : config.Unforged editorJwt [loginArrival] editorArrival := by
    intro headers decoded hheaders _
    have hshows := editorArrival_shows
    rw [hheaders] at hshows
    rw [Except.ok.inj hshows]
    exact ⟨[], loginArrival, [], rfl, List.mem_of_head? hissued⟩
  have hunforged : Steps.Every (config.Unforged editorJwt)
      ([] ++ [loginArrival] ++ [editorArrival]) :=
    Steps.every_snoc.mpr ⟨Steps.every_snoc.mpr ⟨Steps.every_nil, hlogin⟩,
      heditor⟩
  obtain ⟨entry, hauthorized, -⟩ := no_escalation hinit
    (editorJwt_readsBack _ _) hunforged (List.mem_of_head? hran)
  exact ⟨config, entry, hinit, hauthorized⟩

end CgiWebServer
