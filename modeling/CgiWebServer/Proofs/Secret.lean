/-
When tokens can be forged: a server with routes that ask for tokens or
hand them out, and an empty secret.

The routes and the secret are loaded apart from each other. A document
gives a secret (`GivesSecret`) if its `JWT` element names a file, or has
a `Secret`, or asks for a random one of at least one byte; the loaders of
the first two do not return with an empty one. Otherwise the start-up
goes on with an empty secret, whatever the routes are.
-/
import CgiWebServer.Proofs.RouteTable
import CgiWebServer.Startup.Initialize

namespace CgiWebServer

-- ================================================================ secrets

/-- A `GenerateSecret` that is enabled, and whose `Length`, if it has a
text, is positive. -/
structure Generates (secretElem : XMLElement) : Prop where
  enabled : isTrue secretElem "enable" = true
  positive : ∀ text,
    (secretElem.firstChildElement (bytes "Length")).bind (·.text)
      = some text →
    ∃ secretLen, stoi text = some secretLen ∧ 0 < secretLen

/-- A document that gives a secret. -/
inductive GivesSecret (serverConfig : XMLElement) : Prop
  | file {jwtElem secretElem : XMLElement} :
      serverConfig.firstChildElement (bytes "JWT") = some jwtElem →
      jwtElem.firstChildElement (bytes "SecretFile") = some secretElem →
      GivesSecret serverConfig
  | text {jwtElem secretElem : XMLElement} :
      serverConfig.firstChildElement (bytes "JWT") = some jwtElem →
      jwtElem.firstChildElement (bytes "Secret") = some secretElem →
      GivesSecret serverConfig
  | random {jwtElem secretElem : XMLElement} :
      serverConfig.firstChildElement (bytes "JWT") = some jwtElem →
      jwtElem.firstChildElement (bytes "GenerateSecret")
        = some secretElem →
      Generates secretElem → GivesSecret serverConfig

variable {files : Bytes → SecretFile}
  {randBytes : (len : Nat) → Option (Buffer len)}
  {serverConfig secretElem : XMLElement} {secret : Bytes}

/-- A secret that is loaded from a file is not empty. -/
theorem secretFromFile_ne_nil
    (h : loadJwtSecretFromFile files secretElem = .ok secret) :
    secret ≠ [] := by
  unfold loadJwtSecretFromFile at h
  dsimp only at h
  split at h
  next => cases h
  next =>
    split at h
    next => cases h
    next =>
      split at h
      next => cases h
      next data =>
        split at h
        next => cases h
        next =>
          split at h
          next => cases h
          next hempty =>
            cases h
            rintro rfl
            exact hempty rfl

/-- Two digits a byte. -/
theorem convertToHex_eq_nil {buffer : Bytes} :
    convertToHex buffer = [] ↔ buffer = [] := by
  cases buffer with
  | nil => exact ⟨fun _ => rfl, fun _ => rfl⟩
  | cons b rest => simp [convertToHex]

/-- A random secret is as long as it was asked to be. -/
theorem randSecret_ne_nil_iff {len : Nat}
    (h : generateRandSecret randBytes len = .ok secret) :
    secret ≠ [] ↔ 0 < len := by
  unfold generateRandSecret at h
  cases hrand : randBytes len with
  | none =>
      rw [hrand] at h
      cases h
  | some buffer =>
      rw [hrand] at h
      cases h
      have hlen := buffer.property
      rw [ne_eq, convertToHex_eq_nil, ← List.length_eq_zero_iff, hlen]
      omega

/-- The length an enabled `GenerateSecret` asks for. -/
theorem generatedSecret_len (henabled : isTrue secretElem "enable" = true)
    (h : generateJwtSecret randBytes secretElem = .ok secret) :
    ∃ len, generateRandSecret randBytes len = .ok secret
      ∧ (0 < len ↔ Generates secretElem) := by
  unfold generateJwtSecret at h
  rw [henabled] at h
  cases htext : (secretElem.firstChildElement (bytes "Length")).bind
      (·.text) with
  -- Without a Length the default of 64 is taken.
  | none =>
      simp only [htext, Bool.not_true, Bool.false_eq_true, if_false] at h
      refine ⟨_, h, fun _ => ⟨henabled, fun text htext' => ?_⟩,
        fun _ => Nat.succ_pos 63⟩
      cases htext.symm.trans htext'
  | some text =>
      simp only [htext, Bool.not_true, Bool.false_eq_true, if_false] at h
      cases hlen : stoi text with
      | none =>
          rw [hlen] at h
          cases h
      | some secretLen =>
          rw [hlen] at h
          dsimp only at h
          by_cases hneg : secretLen < 0
          · rw [if_pos hneg] at h
            cases h
          · rw [if_neg hneg] at h
            refine ⟨_, h, fun hpos => ⟨henabled, fun text' htext' => ?_⟩,
              fun hgenerates => ?_⟩
            · obtain rfl := Option.some.inj (htext.symm.trans htext')
              exact ⟨secretLen, hlen, by omega⟩
            · obtain ⟨n, hn, hpos⟩ := hgenerates.positive text htext
              obtain rfl := Option.some.inj (hlen.symm.trans hn)
              omega

/-- `GenerateSecret` gives a secret exactly where it generates one. -/
theorem generatedSecret_ne_nil_iff
    (h : generateJwtSecret randBytes secretElem = .ok secret) :
    secret ≠ [] ↔ Generates secretElem := by
  by_cases henabled : isTrue secretElem "enable" = true
  · obtain ⟨len, hrand, hlen⟩ := generatedSecret_len henabled h
    rw [randSecret_ne_nil_iff hrand, hlen]
  · rw [generateJwtSecret, Bool.eq_false_of_not_eq_true henabled] at h
    cases h
    exact ⟨fun hne => absurd rfl hne,
      fun hgenerates => absurd hgenerates.enabled henabled⟩

/-- What a `JWT` element gives, by its three kinds of secret. -/
theorem givesSecret_iff {jwtElem : XMLElement}
    (hjwt : serverConfig.firstChildElement (bytes "JWT") = some jwtElem) :
    GivesSecret serverConfig
      ↔ (∃ e, jwtElem.firstChildElement (bytes "SecretFile") = some e)
        ∨ (∃ e, jwtElem.firstChildElement (bytes "Secret") = some e)
        ∨ ∃ e, jwtElem.firstChildElement (bytes "GenerateSecret") = some e
            ∧ Generates e := by
  constructor
  · intro h
    rcases h with ⟨hjwt', hfile⟩ | ⟨hjwt', htext⟩ | ⟨hjwt', hrandom, hgenerates⟩
    all_goals obtain rfl := Option.some.inj (hjwt.symm.trans hjwt')
    · exact Or.inl ⟨_, hfile⟩
    · exact Or.inr (Or.inl ⟨_, htext⟩)
    · exact Or.inr (Or.inr ⟨_, hrandom, hgenerates⟩)
  · intro h
    rcases h with ⟨e, hfile⟩ | ⟨e, htext⟩ | ⟨e, hrandom, hgenerates⟩
    · exact .file hjwt hfile
    · exact .text hjwt htext
    · exact .random hjwt hrandom hgenerates

/-- The secret is set exactly where the document gives one. -/
theorem secret_ne_nil_iff
    (h : loadJwtSecret files randBytes serverConfig = .ok secret) :
    secret ≠ [] ↔ GivesSecret serverConfig := by
  unfold loadJwtSecret at h
  cases hjwt : serverConfig.firstChildElement (bytes "JWT") with
  | none =>
      rw [hjwt] at h
      cases h
      refine ⟨fun hne => absurd rfl hne, fun hgives => ?_⟩
      rcases hgives with ⟨hjwt', -⟩ | ⟨hjwt', -⟩ | ⟨hjwt', -, -⟩
      all_goals cases hjwt.symm.trans hjwt'
  | some jwtElem =>
      rw [givesSecret_iff hjwt]
      simp only [hjwt] at h
      -- The first of the three children that is there decides.
      cases hfile : jwtElem.firstChildElement (bytes "SecretFile") with
      | some fileElem =>
          rw [hfile] at h
          exact ⟨fun _ => Or.inl ⟨fileElem, rfl⟩,
            fun _ => secretFromFile_ne_nil h⟩
      | none =>
          simp only [hfile] at h
          cases htext : jwtElem.firstChildElement (bytes "Secret") with
          | some textElem =>
              simp only [htext] at h
              split at h
              next => cases h
              next hempty =>
                cases h
                refine ⟨fun _ => Or.inr (Or.inl ⟨textElem, rfl⟩), ?_⟩
                intro _ hnil
                exact hempty (by rw [hnil]; rfl)
          | none =>
              simp only [htext] at h
              cases hrandom : jwtElem.firstChildElement
                  (bytes "GenerateSecret") with
              | none =>
                  rw [hrandom] at h
                  cases h
                  simp
              | some randomElem =>
                  rw [hrandom] at h
                  rw [generatedSecret_ne_nil_iff h]
                  simp

-- ================================================================= routes

/-- An entry that asks for a token or hands one out. -/
def EndpointMethod.UsesTokens (entry : EndpointMethod) : Prop :=
  entry.isProtected = true ∨ entry.isAuthenticator = true

/-- A table with such an entry. -/
def Router.UsesTokens (r : Router) : Prop :=
  ∃ p entry, r.derefRoute p = some entry ∧ entry.UsesTokens

/-- A document with such a route: its method is one, and no later route
has its endpoint and its method. -/
def DocumentUsesTokens (serverConfig : XMLElement) : Prop :=
  ∃ before route after,
    routeElements serverConfig = before ++ route :: after
      ∧ (routePtr route).method ≠ .notAllowed
      ∧ (isTrue route "protected" = true
        ∨ isTrue route "authenticator" = true)
      ∧ ∀ later ∈ after, routePtr later ≠ routePtr route

/-- The entry of an element uses tokens if the element says so. -/
theorem usesTokens_loadedEntry {contentPath : Bytes} {route : XMLElement}
    {entry : EndpointMethod}
    (h : loadedEntry contentPath route = some entry) :
    entry.UsesTokens ↔ isTrue route "protected" = true
      ∨ isTrue route "authenticator" = true := by
  obtain ⟨kind, -, rfl⟩ := loadedEntry_ok h
  exact Iff.rfl

/-- The entries that use tokens are those of the routes that do. -/
theorem usesTokens_iff {contentPath : Bytes}
    {errorPages : AList fun _ : Code => Bytes} {srv : Server}
    (h : initializeServer contentPath serverConfig errorPages = .ok srv) :
    srv.router.UsesTokens ↔ DocumentUsesTokens serverConfig := by
  have hentries := exists_entry_iff h (P := EndpointMethod.UsesTokens)
    (Q := fun route => isTrue route "protected" = true
      ∨ isTrue route "authenticator" = true) ?_
    (fun _ _ hloaded => usesTokens_loadedEntry hloaded)
  · refine hentries.trans ⟨?_, ?_⟩
    · intro h
      obtain ⟨route, ⟨before, after, hsplit, hmethod, hlater⟩, htokens⟩ := h
      exact ⟨before, route, after, hsplit, hmethod, htokens, hlater⟩
    · intro h
      obtain ⟨before, route, after, hsplit, hmethod, htokens, hlater⟩ := h
      exact ⟨route, ⟨before, after, hsplit, hmethod, hlater⟩, htokens⟩
  · intro p entry hentry huses
    obtain ⟨-, -, hopen, hnoAuth⟩ := derefRoute_initial hentry
    rcases huses with hprotected | hauth
    · cases hopen.symm.trans hprotected
    · cases hnoAuth.symm.trans hauth

-- ============================================================ the start-up

/-- Where the start-up is through, a server whose routes use tokens signs
them with a secret exactly where the document gives one. -/
theorem secret_of_token_routes_iff {machine : Machine} {config : Config}
    (hdocument : loadDocument machine = .ok serverConfig)
    (h : initializeConfig machine = .ok config) :
    (config.server.router.UsesTokens → config.secret ≠ [])
      ↔ (DocumentUsesTokens serverConfig → GivesSecret serverConfig) := by
  have hloaded := loaded_of_initializeConfig hdocument h
  obtain ⟨errorPages, hserver⟩ := hloaded.server
  rw [usesTokens_iff hserver, secret_ne_nil_iff hloaded.secret]

/-- A server with a protected route, and what its `JWT` element is. -/
def protectedMachine (jwt : List XMLElement) : Machine where
  loadFile := .ok [.mk (bytes "ServerConfig") []
    (jwt ++ [.mk (bytes "WebDirectory") [] [] (some (bytes "/srv/www")),
      .mk (bytes "Routes") []
        [.mk (bytes "Route")
          [(bytes "method", bytes "GET"), (bytes "endpoint", bytes "/admin"),
            (bytes "script", bytes "admin.php"),
            (bytes "protected", bytes "true"),
            (bytes "access_role", bytes "admin")] []]])]

/-- A `JWT` element with a `Secret`. -/
def secretText : XMLElement :=
  .mk (bytes "JWT") []
    [.mk (bytes "Secret") [] [] (some (bytes "top-secret-string"))]

/-- With one, the key is not empty. -/
theorem secret_of_token_routes_text :
    ∃ config, initializeConfig (protectedMachine [secretText]) = .ok config
      ∧ (config.server.router.UsesTokens → config.secret ≠ []) := by
  obtain ⟨config, hinit⟩ : ∃ config,
      initializeConfig (protectedMachine [secretText]) = .ok config := ⟨_, rfl⟩
  obtain ⟨serverConfig, hdocument, hgives⟩ : ∃ serverConfig,
      loadDocument (protectedMachine [secretText]) = .ok serverConfig
        ∧ GivesSecret serverConfig := ⟨_, rfl, .text rfl rfl⟩
  exact ⟨config, hinit,
    (secret_of_token_routes_iff hdocument hinit).mpr fun _ => hgives⟩

/-- Without a `JWT` element the start-up goes through, and the key of the
tokens its protected route takes is empty. -/
theorem empty_secret_without_jwt :
    ¬ ∀ (machine : Machine) (config : Config),
      initializeConfig machine = .ok config →
      config.server.router.UsesTokens → config.secret ≠ [] := by
  intro hclaim
  obtain ⟨config, hinit, huses, hempty⟩ : ∃ config,
      initializeConfig (protectedMachine []) = .ok config
        ∧ config.server.router.UsesTokens ∧ config.secret = [] :=
    ⟨_, rfl, ⟨⟨bytes "/admin", .get⟩, _, rfl, Or.inl rfl⟩, rfl⟩
  exact hclaim _ config hinit huses hempty

end CgiWebServer
