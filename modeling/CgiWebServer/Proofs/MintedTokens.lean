/-
Minting and validating agree on the roles of the configuration.

A token carries the role of the route that minted it as text; what it is
good for is looked up when it is shown. Routes name roles freely, and a
role nobody declared is not found: its tokens are refused everywhere,
also where the route asks for exactly that role.
-/
import CgiWebServer.Proofs.Roles
import CgiWebServer.Startup.Initialize

namespace CgiWebServer

/-- What jwt-cpp promises of a token that is signed for a role: until it
expires it verifies under the same secret and issuer and has the claims
it was given, and as a compact serialization it is not empty and has no
`;`. -/
structure Jwt.SignsFor (jwt : Jwt) (secret issuer role : Bytes)
    (expiresAt : Int) : Prop where
  verify : ∀ now < expiresAt,
    jwt.verify secret issuer now (jwt.sign secret issuer role expiresAt)
      = .ok { expiresAt := some expiresAt, role := some role }
  nonempty : jwt.sign secret issuer role expiresAt ≠ []
  noSemicolon : 59 ∉ jwt.sign secret issuer role expiresAt

/-- The token of a cookie that holds nothing else. -/
theorem extractJwtFromCookie_token {token : Bytes} (h : 59 ∉ token) :
    extractJwtFromCookie (bytes "jwt=" ++ token) = token := by
  have hend : Scan.findFrom (bytes ";") (bytes "jwt=" ++ token)
      (bytes "jwt=").length = none := by
    rw [Scan.findFrom_append]
    have hnone : Scan.find (bytes ";") token = none :=
      Scan.find_none_of_head h
    rw [hnone]
    rfl
  unfold extractJwtFromCookie
  rw [Scan.find_self_append]
  simp only [Nat.zero_add, hend]
  exact List.drop_left

/-- A token that was decoded and has not expired is accepted for exactly
the roles that the role it names includes. -/
theorem validateToken_iff {env : Env} {accessRole token roleName : Bytes}
    {expiresAt : Int}
    (hdecoded : env.jwt token
      = .ok { expiresAt := some expiresAt, role := some roleName })
    (hlive : env.now ≤ expiresAt) :
    validateToken env accessRole token = .ok ()
      ↔ ∃ role, env.roles.lookup roleName = some role
        ∧ role.includesRole accessRole = true := by
  have hnotExpired : (env.now > expiresAt) = False :=
    eq_false (Int.not_lt.mpr hlive)
  unfold validateToken
  simp only [hdecoded, Option.any_some, hnotExpired, decide_false,
    Bool.false_eq_true, if_false]
  cases hrole : env.roles.lookup roleName with
  | none => simp
  | some role =>
      by_cases hincludes : role.includesRole accessRole = true
      · simp [hincludes]
      · simp [hincludes]

/-- A minted token that is shown before it expires as the cookie of a
request to a protected route: what its role is worth in the loaded map
decides. -/
theorem validate_minted_iff {config : Config} {jwt : Jwt} {role : Bytes}
    {target : EndpointMethod} {minted shown : Int} (env env' : Env)
    (hprotected : target.isProtected = true)
    (hsigns : jwt.SignsFor config.secret config.hostName role
      (defaultExpiration minted))
    (hlive : shown < defaultExpiration minted) {request : Request}
    (hcookie : request.getHeader (bytes "Cookie")
      = bytes "jwt=" ++ (config.sessionEnv jwt minted env).mint role) :
    validate (config.sessionEnv jwt shown env') request target = .ok ()
      ↔ ∃ r, config.roles.findRole role = some r
        ∧ r.includesRole target.accessRole = true := by
  have htoken := extractJwtFromCookie_token hsigns.noSemicolon
  have hpresent : ((bytes "jwt=" ++ jwt.sign config.secret config.hostName
      role (defaultExpiration minted)).isEmpty
      || (jwt.sign config.secret config.hostName role
        (defaultExpiration minted)).isEmpty) = false := by
    simp [hsigns.nonempty]
  have hvalidate : validate (config.sessionEnv jwt shown env') request
        target
      = validateToken (config.sessionEnv jwt shown env') target.accessRole
          (jwt.sign config.secret config.hostName role
            (defaultExpiration minted)) := by
    unfold validate
    rw [if_neg (by simp [hprotected]), hcookie]
    simp only [Config.sessionEnv, htoken, hpresent, Bool.false_eq_true,
      if_false]
  rw [hvalidate]
  exact validateToken_iff (hsigns.verify shown hlive)
    (Int.le_of_lt hlive)

/-- It is accepted exactly where its role is known, and the route's access
role is that role or is included in it. -/
theorem minted_token_accepted_iff {machine : Machine}
    {serverConfig : XMLElement} {config : Config}
    (hdocument : loadDocument machine = .ok serverConfig)
    (h : initializeConfig machine = .ok config) {jwt : Jwt}
    {entry target : EndpointMethod} {minted shown : Int} (env env' : Env)
    (hprotected : target.isProtected = true)
    (hsigns : jwt.SignsFor config.secret config.hostName entry.authRole
      (defaultExpiration minted))
    (hlive : shown < defaultExpiration minted) {request : Request}
    (hcookie : request.getHeader (bytes "Cookie")
      = bytes "jwt=" ++ (config.sessionEnv jwt minted env).mint
          entry.authRole) :
    validate (config.sessionEnv jwt shown env') request target = .ok ()
      ↔ Named (roleElements serverConfig) entry.authRole
        ∧ (target.accessRole = entry.authRole
          ∨ Includes (roleElements serverConfig) entry.authRole
              target.accessRole) := by
  have hloaded := loaded_of_initializeConfig hdocument h
  rw [validate_minted_iff env env' hprotected hsigns hlive hcookie]
  exact includesRole_loadRoles hloaded.roles

-- ============================================================== two roles

/-- A server that hands out tokens of one role and asks for another. -/
def clientMachine (roles : List XMLElement) (authRole accessRole : String) :
    Machine where
  loadFile := .ok [.mk (bytes "ServerConfig") []
    [.mk (bytes "WebDirectory") [] [] (some (bytes "/srv/www")),
      .mk (bytes "JWT") []
        [.mk (bytes "Secret") [] [] (some (bytes "top-secret-string"))],
      .mk (bytes "Roles") [] roles,
      .mk (bytes "Routes") []
        [.mk (bytes "Route")
          [(bytes "method", bytes "POST"), (bytes "endpoint", bytes "/login"),
            (bytes "script", bytes "login.py"),
            (bytes "authenticator", bytes "true"),
            (bytes "auth_role", bytes authRole)] [],
          .mk (bytes "Route")
            [(bytes "method", bytes "GET"), (bytes "endpoint", bytes "/my_api"),
              (bytes "script", bytes "my_api.py"),
              (bytes "protected", bytes "true"),
              (bytes "access_role", bytes accessRole)] []]]]

/-- The entry of its login. -/
def clientLogin (authRole : String) : EndpointMethod where
  m := .post
  accessRole := viewerRole
  authRole := bytes authRole
  isAuthenticator := true
  resource := bytes "/srv/www/login.py"
  hasScript := true
  handler := some .post

/-- The entry of its protected route. -/
def clientApi (accessRole : String) : EndpointMethod where
  m := .get
  accessRole := bytes accessRole
  isProtected := true
  resource := bytes "/srv/www/my_api.py"
  hasScript := true
  handler := some .get

/-- A token that expires at second 1700003600. -/
def clientToken (claims : Bytes) : Bytes :=
  bytes "eyJhbGciOiJIUzI1NiJ9." ++ claims

/-- jwt-cpp, on the one token of a role. -/
def clientJwt (role : String) (claims : Bytes) : Jwt where
  sign _ _ _ _ := clientToken claims
  verify _ _ now token :=
    if token = clientToken claims ∧ now < 1700003600 then
      .ok { expiresAt := some 1700003600, role := some (bytes role) }
    else .error (bytes "token verification failed")

/-- The request that shows it. -/
def clientRequest (claims : Bytes) : Request :=
  { headers := (∅ : AList fun _ : Bytes => Bytes).insert (bytes "Cookie")
      (bytes "jwt=" ++ clientToken claims) }

theorem clientJwt_signsFor (role : String) (claims : Bytes) (secret issuer : Bytes)
    (hclaims : 59 ∉ claims) :
    (clientJwt role claims).SignsFor secret issuer (bytes role)
      (defaultExpiration 1700000000) := by
  refine ⟨fun now hnow => if_pos ⟨rfl, hnow⟩, ?_, ?_⟩
  · exact List.append_ne_nil_of_left_ne_nil (by decide) _
  · intro hmem
    rcases List.mem_append.mp hmem with hheader | hpayload
    · exact absurd hheader (by decide)
    · exact hclaims hpayload

/-- The claims of a token of the role `editor`, and its signature. -/
def editorClaims : Bytes :=
  bytes "eyJleHAiOjE3MDAwMDM2MDAsImlzcyI6InNlcnZlciIsInJvbGUiOiJlZGl0b3I"
    ++ bytes "iLCJzdWIiOiJhdXRoLXRva2VuIn0."
    ++ bytes "DlMaqmVkKQLk0u8I4zfTGlgkzdjHgjBJxJblnaTZfps"

/-- Those of the role `api_client`. -/
def apiClientClaims : Bytes :=
  bytes "eyJleHAiOjE3MDAwMDM2MDAsImlzcyI6InNlcnZlciIsInJvbGUiOiJhcGlfY2x"
    ++ bytes "pZW50Iiwic3ViIjoiYXV0aC10b2tlbiJ9."
    ++ bytes "deOYVeVHh5VGSMLZWEmtxKyz6OJiwjook_ozFesI3v4"

/-- The role `editor`, which includes `viewer`. -/
def editorRole : XMLElement :=
  .mk (bytes "Role") [(bytes "title", bytes "editor")]
    [.mk (bytes "Includes") [] [] (some (bytes "viewer"))]

/-- A declared role: the token of the login opens a route of a role it
includes. -/
theorem minted_token_accepted_editor :
    ∃ config,
      initializeConfig (clientMachine [editorRole] "editor" "viewer")
          = .ok config
        ∧ validate (config.sessionEnv (clientJwt "editor" editorClaims)
            1700000060 {}) (clientRequest editorClaims) (clientApi "viewer")
          = .ok () := by
  obtain ⟨config, hinit⟩ : ∃ config,
      initializeConfig (clientMachine [editorRole] "editor" "viewer")
        = .ok config := ⟨_, rfl⟩
  have hsigns := clientJwt_signsFor "editor" editorClaims config.secret
    config.hostName (by decide +kernel)
  have hentry : (clientLogin "editor").authRole = bytes "editor" := rfl
  rw [← hentry] at hsigns
  refine ⟨config, hinit, ?_⟩
  refine (minted_token_accepted_iff rfl hinit {} {} rfl hsigns (by decide)
    rfl).mpr ⟨?_, Or.inr ?_⟩
  · exact Or.inr ⟨editorRole, List.mem_singleton_self _, rfl⟩
  · exact .listed (List.nil_append [editorRole]).symm rfl (by simp)
      (List.mem_singleton_self _)

/-- A role that only the routes name: the token of the login is refused by
the route that asks for exactly its role. -/
theorem undeclared_role_token_refused :
    ¬ ∀ (machine : Machine) (config : Config) (serverConfig : XMLElement),
      initializeConfig machine = .ok config →
      loadDocument machine = .ok serverConfig → config.secret ≠ [] →
      ∀ (p q : RoutePtr) (entry target : EndpointMethod),
        config.server.router.derefRoute p = some entry →
        entry.isAuthenticator = true →
        config.server.router.derefRoute q = some target →
        target.isProtected = true →
        (target.accessRole = entry.authRole
          ∨ Includes (roleElements serverConfig) entry.authRole
              target.accessRole) →
        ∀ (jwt : Jwt) (env env' : Env) (minted shown : Int)
          (request : Request),
          jwt.SignsFor config.secret config.hostName entry.authRole
            (defaultExpiration minted) →
          shown < defaultExpiration minted →
          request.getHeader (bytes "Cookie")
            = bytes "jwt=" ++ (config.sessionEnv jwt minted env).mint
                entry.authRole →
          validate (config.sessionEnv jwt shown env') request target
            = .ok () := by
  intro hclaim
  obtain ⟨config, hinit, hroles, hsecret, hlogin, hapi⟩ :
      ∃ config,
        initializeConfig (clientMachine [] "api_client" "api_client")
          = .ok config
        ∧ config.roles.findRole (bytes "api_client") = none
        ∧ config.secret = bytes "top-secret-string"
        ∧ config.server.router.derefRoute ⟨bytes "/login", .post⟩
          = some (clientLogin "api_client")
        ∧ config.server.router.derefRoute ⟨bytes "/my_api", .get⟩
          = some (clientApi "api_client") := ⟨_, rfl, rfl, rfl, rfl, rfl⟩
  have hsigns := clientJwt_signsFor "api_client" apiClientClaims
    config.secret config.hostName (by decide +kernel)
  have haccepted := hclaim _ config _ hinit rfl (by rw [hsecret]; decide)
    _ _ _ _ hlogin rfl hapi rfl (Or.inl rfl) _ {} {} 1700000000 1700000060
    (clientRequest apiClientClaims) hsigns (by decide) rfl
  -- A token is accepted only for a role that is declared.
  obtain ⟨role, hrole, -⟩ := (validate_minted_iff {} {} rfl hsigns
    (by decide) rfl).mp haccepted
  cases hroles.symm.trans hrole

end CgiWebServer
