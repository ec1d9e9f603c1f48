/-
The gate: what has to hold for the pipeline below `ErrorHandler` to
return.

Every component is read backwards. If it returns, its own checks passed
and its `next` returned from a transaction the component determines, so
the run of a whole pipeline comes apart component by component
(`parser_ok`, `limiter_ok`, `rateLimiter_ok`, `authenticator_ok`) and
`gate_ok` puts the pieces together for the pipelines `loadPipeline`
builds.

Whether or not it returns, the gate only does five things to a
transaction (`GateFrame`), and whatever relation they stay within the
gate stays within (`gate_runPipeline`). So it writes nothing to the
client and runs no handler, and the one event it can add is a minted
token (`gateFrame_quiet`).
-/
import CgiWebServer.Config
import CgiWebServer.Proofs.Frames
import CgiWebServer.Proofs.Routing

namespace CgiWebServer

open Process

variable (env : Env)

-- ======================================================== what is checked

/-- A limiter admits a request: its key can be made, and the loop over
the key's word is left rather than thrown out of. -/
def Limiter.Admits (view : LimitView) (request : Request) :
    Limiter → Prop
  | .fixedWindow s =>
      (∃ key, s.makeKey.makeKey env.ip request = .ok key)
        ∧ ∃ desired, exchangeLoop
            (FixedWindow.attempt s (FixedWindow.thisWindowId s view.secs))
            true view.exchanges view.load = .left desired
  | .tokenBucket s =>
      (∃ key, s.makeKey.makeKey env.ip request = .ok key)
        ∧ ∃ desired, exchangeLoop (TokenBucket.attempt s (toU32 view.secs))
            false view.exchanges view.load = .left desired

/-- The parser accepts the client's bytes as a request: they were read
without an error, and every part of the request is what its extractor
finds in them. -/
structure ParserAccepts (argType : ArgType) (request : Request) :
    Prop where
  read : env.readEc = .ok
  endpointUrl : extractEndpoint env.buffer = .ok request.endpointUrl
  method : extractMethod env.buffer = .ok request.method
  args : extractArgs env.json env.buffer argType = .ok request.args
  headers : extractHeaders env.buffer = .ok request.headers
  body : extractBody env.buffer = .ok request.body
  query : extractQueryString env.buffer = .ok request.query

/-- `Authenticator::validate` accepts a request to a protected entry: the
cookie carries a non-empty token that is accepted and not expired, and
its role claim names a role of the configuration that includes the
entry's access role. -/
def Validated (request : Request) (entry : EndpointMethod) : Prop :=
  entry.isProtected = true →
    ∃ token decoded roleName role,
      token = extractJwtFromCookie (request.getHeader (bytes "Cookie"))
        ∧ token ≠ [] ∧ env.jwt token = .ok decoded
        ∧ (∀ e, decoded.expiresAt = some e → env.now ≤ e)
        ∧ decoded.role = some roleName
        ∧ env.roles.lookup roleName = some role
        ∧ role.includesRole entry.accessRole = true

-- ============================================================ validation

/-- `validate` returns only on what `Validated` says. -/
theorem validated_of_validate {request : Request}
    {entry : EndpointMethod} (h : validate env request entry = .ok ()) :
    Validated env request entry := by
  intro hprotected
  unfold validate at h
  rw [if_neg (by rw [hprotected]; decide)] at h
  dsimp only at h
  split at h
  next => cases h
  next hpresent =>
    -- An empty cookie would have thrown before the token was decoded.
    have hne : extractJwtFromCookie (request.getHeader (bytes "Cookie"))
        ≠ [] := by
      intro hnil
      rw [hnil] at hpresent
      simp at hpresent
    unfold validateToken at h
    split at h
    next => cases h
    next decoded hdecoded =>
      split at h
      next => cases h
      next hexpired =>
        have hlive : ∀ e, decoded.expiresAt = some e → env.now ≤ e := by
          intro e he
          rw [he] at hexpired
          simpa using hexpired
        split at h
        next => cases h
        next roleName hroleName =>
          split at h
          next => cases h
          -- Every other exit of validate has thrown; this one names the
          -- role whose list held the route's.
          next role hrole =>
            split at h
            next hincludes =>
              exact ⟨_, decoded, roleName, role, rfl, hne, hdecoded, hlive,
                hroleName, hrole, hincludes⟩
            next => cases h

-- ======================================================== the components

/-- A sequence that begins by reading through a pointer, and returned. -/
theorem derefPtr_bind_ok {α β : Type} {p : Option α} {f : α → Act β}
    {s s' : Txn} {y : β} (h : (derefPtr p >>= f) s = (.ok y, s')) :
    ∃ x, p = some x ∧ f x s = (.ok y, s') := by
  cases p with
  | none => cases h
  | some x => exact ⟨x, rfl, h⟩

/-- A limiter that lets its `next` return has admitted the request. -/
theorem limiter_ok {view : LimitView} {l : Limiter} {next : Act Unit}
    {s s' : Txn} (h : l.process env view next s = (.ok (), s')) :
    l.Admits env view s.request
      ∧ ∃ r, next { s with response := r } = (.ok (), s') := by
  -- Either limiter admits by leaving its loop with a word stored; the two
  -- other outcomes of the loop end the chain.
  cases l with
  | fixedWindow fw =>
      obtain ⟨key, hkey, hkeyed⟩ := Proc.ofExcept_bind_ok (Proc.get_bind h)
      split at hkeyed
      next => cases hkeyed
      next =>
        cases hloop : exchangeLoop
            (FixedWindow.attempt fw (FixedWindow.thisWindowId fw view.secs))
            true view.exchanges view.load with
        | threw old =>
            simp only [hloop] at hkeyed
            cases hkeyed
        | running =>
            simp only [hloop] at hkeyed
            cases hkeyed
        | left desired =>
            simp only [hloop] at hkeyed
            exact ⟨⟨⟨key, hkey⟩, desired, hloop⟩, _, hkeyed⟩
  | tokenBucket tb =>
      obtain ⟨key, hkey, hkeyed⟩ := Proc.ofExcept_bind_ok (Proc.get_bind h)
      cases hloop : exchangeLoop (TokenBucket.attempt tb (toU32 view.secs))
          false view.exchanges view.load with
      | threw old =>
          simp only [hloop] at hkeyed
          cases hkeyed
      | running =>
          simp only [hloop] at hkeyed
          cases hkeyed
      | left desired =>
          simp only [hloop] at hkeyed
          exact ⟨⟨⟨key, hkey⟩, desired, hloop⟩, _, hkeyed⟩

/-- The per-route limiter: if the route has one, it admitted. -/
theorem rateLimiter_ok {next : Act Unit} {s s' : Txn}
    (h : rateLimiterProcess env next s = (.ok (), s')) :
    ∃ entry, s.request.route.bind s.router.derefRoute = some entry
      ∧ (∀ l, entry.rateLimiter = some l →
          l.Admits env env.routeLimit s.request)
      ∧ ∃ r, next { s with response := r } = (.ok (), s') := by
  obtain ⟨entry, hentry, hrouted⟩ := derefPtr_bind_ok (Proc.get_bind h)
  refine ⟨entry, hentry, ?_⟩
  cases hlimiter : entry.rateLimiter with
  | none =>
      simp only [hlimiter] at hrouted
      refine ⟨fun l hl => ?_, _, hrouted⟩
      cases hl
  | some l =>
      simp only [hlimiter] at hrouted
      obtain ⟨hadmits, hnext⟩ := limiter_ok env hrouted
      exact ⟨fun l' hl' => Option.some.inj hl' ▸ hadmits, hnext⟩

/-- What minting leaves behind. -/
def minted (cookie : Bytes) (s : Txn) : Txn :=
  { s with
    response := s.response.addHeader setCookie cookie
    trace := s.trace ++ [.minted cookie] }

/-- The authenticator at the pipeline's end: it validated the request,
and minted a token exactly if the entry is an authenticator. -/
theorem authenticator_ok {s s' : Txn}
    (h : authenticatorProcess env (pure ()) s = (.ok (), s')) :
    ∃ entry, s.request.route.bind s.router.derefRoute = some entry
      ∧ validate env s.request entry = .ok ()
      ∧ ((entry.isAuthenticator = false ∧ s' = s)
        ∨ (entry.isAuthenticator = true
          ∧ ∃ ep role, s.request.endpoint.bind s.router.deref = some ep
            ∧ ep.getAuthRole s.request.method = .ok role
            ∧ s' = minted (jwtCookie (env.mint role)) s)) := by
  obtain ⟨entry, hentry, hrouted⟩ := derefPtr_bind_ok (Proc.get_bind h)
  obtain ⟨_, hvalid, hnext⟩ := Proc.ofExcept_bind_ok hrouted
  refine ⟨entry, hentry, hvalid, ?_⟩
  change (if entry.isAuthenticator = true then mintToken env
    else pure ()) s = (.ok (), s') at hnext
  cases hauth : entry.isAuthenticator with
  | false =>
      rw [hauth] at hnext
      cases hnext
      exact Or.inl ⟨rfl, rfl⟩
  | true =>
      rw [hauth, if_pos rfl] at hnext
      have hmint := Proc.get_bind hnext
      split at hmint
      next => cases hmint
      next =>
        obtain ⟨ep, hderef, hep⟩ := derefPtr_bind_ok hmint
        obtain ⟨role, hrole, hnext⟩ := Proc.ofExcept_bind_ok hep
        cases hnext
        exact Or.inr ⟨rfl, ep, role, hderef, hrole, rfl⟩

-- ================================================================ parser

/-- What lookups may do to a table: what is there stays as it is, and
what is new is the default entry of its key. -/
structure Grown (r r' : Router) : Prop where
  errorPages : r'.errorPages = r.errorPages
  kept : ∀ k ep, r.endpoints.lookup k = some ep →
    r'.endpoints.lookup k = some ep
  fresh : ∀ k ep, r'.endpoints.lookup k = some ep →
    r.endpoints.lookup k = some ep
      ∨ Router.defaultEndpoint k = .ok ep

theorem Grown.refl (r : Router) : Grown r r :=
  ⟨rfl, fun _ _ h => h, fun _ _ h => Or.inl h⟩

theorem Grown.trans {r r' r'' : Router} (h : Grown r r')
    (h' : Grown r' r'') : Grown r r'' := by
  refine ⟨h'.errorPages.trans h.errorPages,
    fun k ep hk => h'.kept k ep (h.kept k ep hk), fun k ep hk => ?_⟩
  rcases h'.fresh k ep hk with hold | hnew
  · exact h.fresh k ep hold
  · exact Or.inr hnew

/-- A lookup only lets the table grow, and finds its key in what it
leaves. -/
theorem grown_getEndpoint {fileExists : Bytes → Bool} {r r' : Router}
    {url p : Bytes} (h : r.getEndpoint fileExists url = .ok (p, r')) :
    p = url ∧ Grown r r' ∧ url ∈ r'.endpoints := by
  obtain ⟨rfl, ⟨hmem, rfl⟩ | ⟨hnew, _, ep, hdefault, rfl⟩⟩ :=
    Router.getEndpoint_ok h
  · exact ⟨rfl, Grown.refl _, hmem⟩
  · refine ⟨rfl, ⟨rfl, fun k ep' hk => ?_, fun k ep' hk => ?_⟩, ?_⟩
    · have hne : k ≠ p := by
        rintro rfl
        exact hnew (AList.lookup_isSome.mp (by rw [hk]; rfl))
      exact (AList.lookup_insert_ne hne).trans hk
    · by_cases hkp : k = p
      · subst hkp
        right
        have hep : some ep = some ep' :=
          (AList.lookup_insert r.endpoints).symm.trans hk
        rw [← Option.some.inj hep]
        exact hdefault
      · exact Or.inl ((AList.lookup_insert_ne hkp).symm.trans hk)
    · exact (AList.mem_insert _).mpr (Or.inl rfl)

/-- A lookup of a key that is in the table leaves the table alone. -/
theorem getEndpoint_of_mem {fileExists : Bytes → Bool} {r r' : Router}
    {url p : Bytes} (hmem : url ∈ r.endpoints)
    (h : r.getEndpoint fileExists url = .ok (p, r')) : r' = r := by
  obtain ⟨rfl, ⟨_, hsame⟩ | ⟨hnew, _⟩⟩ := Router.getEndpoint_ok h
  · exact hsame
  · exact absurd hmem hnew

/-- A lookup in a transaction that returned. -/
theorem getEndpointAct_ok {url p : Bytes} {s s' : Txn}
    (h : getEndpointAct env url s = (.ok p, s')) :
    ∃ router, s.router.getEndpoint env.fileExists url = .ok (p, router)
      ∧ s' = { s with router := router } := by
  obtain ⟨⟨q, router⟩, hfound, hleft⟩ :=
    Proc.ofExcept_bind_ok (Proc.get_bind h)
  cases hleft
  exact ⟨router, hfound, rfl⟩

/-- The second lookup of a key that is in the table: the method's entry
is there, and the transaction is left alone. -/
theorem getEndpointMethodAct_ok {url : Bytes} {m : Method} {s s' : Txn}
    {route : RoutePtr} (hmem : url ∈ s.router.endpoints)
    (h : getEndpointMethodAct env url m s = (.ok route, s')) :
    route = { endpoint := url, method := m } ∧ s' = s := by
  obtain ⟨p, s₁, hfound, h1⟩ := Proc.bind_ok h
  obtain ⟨router, hlookup, rfl⟩ := getEndpointAct_ok env hfound
  obtain ⟨rfl, _, _⟩ := grown_getEndpoint hlookup
  obtain rfl := getEndpoint_of_mem hmem hlookup
  obtain ⟨ep, _, h2⟩ := derefPtr_bind_ok (Proc.get_bind h1)
  obtain ⟨_, _, h3⟩ := Proc.ofExcept_bind_ok h2
  cases h3
  exact ⟨rfl, rfl⟩

/-- A parser that lets its `next` return has accepted the bytes, looked
the endpoint up, and found the method's entry in it. -/
theorem parser_ok {next : Act Unit} {s s' : Txn}
    (h : parserProcess env next s = (.ok (), s')) :
    ∃ request router entry,
      s.router.getEndpoint env.fileExists request.endpointUrl
          = .ok (request.endpointUrl, router)
        ∧ ParserAccepts env entry.args request
        ∧ Routed request router entry
        ∧ next { s with request := request, router := router }
          = (.ok (), s') := by
  unfold parserProcess at h
  split at h
  next => cases h
  next hread =>
    -- The checks in the order parser makes them, each of which has
    -- succeeded.
    obtain ⟨url, hurl, h1⟩ := Proc.ofExcept_bind_ok h
    obtain ⟨p, s₁, hfound, h2⟩ := Proc.bind_ok h1
    obtain ⟨router, hlookup, rfl⟩ := getEndpointAct_ok env hfound
    obtain ⟨rfl, _, hmem⟩ := grown_getEndpoint hlookup
    obtain ⟨m, hmethod, h3⟩ := Proc.ofExcept_bind_ok h2
    obtain ⟨ep, hep, h4⟩ := derefPtr_bind_ok (Proc.get_bind h3)
    obtain ⟨argType, harg, h5⟩ := Proc.ofExcept_bind_ok h4
    obtain ⟨entry, hentry, rfl⟩ := Endpoint.field_ok harg
    obtain ⟨args, hargs, h6⟩ := Proc.ofExcept_bind_ok h5
    obtain ⟨headers, hheaders, h7⟩ := Proc.ofExcept_bind_ok h6
    obtain ⟨body, hbody, h8⟩ := Proc.ofExcept_bind_ok h7
    obtain ⟨query, hquery, h9⟩ := Proc.ofExcept_bind_ok h8
    obtain ⟨route, s₂, hroute, h10⟩ := Proc.bind_ok h9
    obtain ⟨rfl, rfl⟩ := getEndpointMethodAct_ok env hmem hroute
    have hnext := Proc.modify_bind h10
    refine ⟨_, router, entry, hlookup, ⟨?_, hurl, hmethod, hargs, hheaders,
      hbody, hquery⟩, ⟨rfl, rfl, ?_⟩, hnext⟩
    · exact Classical.not_not.mp hread
    · show (router.deref p).bind _ = some entry
      rw [hep]
      exact hentry

-- =============================================================== frames

/-- The headers the gate's components set. -/
def gateHeaders : List Bytes :=
  [bytes "X-RateLimit-Limit", bytes "X-RateLimit-Remaining",
    bytes "X-RateLimit-Reset", bytes "Retry-After", setCookie]

/-- Every change the gate's steps make to a transaction stays within a
relation. -/
structure GateFrame (R : Txn → Txn → Prop) : Prop where
  refl : ∀ s, R s s
  trans : ∀ s t u, R s t → R t u → R s u
  headers : ∀ (s : Txn) (fields : List (Bytes × Bytes)),
    (∀ f ∈ fields, f.1 ∈ gateHeaders) →
    R s { s with response :=
      fields.foldl (fun r h => r.addHeader h.1 h.2) s.response }
  lookup : ∀ (s : Txn) (url p : Bytes) (router : Router),
    s.router.getEndpoint env.fileExists url = .ok (p, router) →
    R s { s with router := router }
  request : ∀ (s : Txn) (request : Request),
    R s { s with request := request }
  minted : ∀ (s : Txn) (cookie : Bytes),
    R s { s with trace := s.trace ++ [.minted cookie] }

/-- A stretch of the gate: it stays within the relation, and throws the
server's exceptions only. -/
abbrev GateWithin (R : Txn → Txn → Prop) {α : Type} (a : Act α) : Prop :=
  Proc.Within R ThrownStop a

/-- The components below `ErrorHandler`. -/
def Component.IsGate : Component → Prop
  | .errorHandler => False
  | _ => True

section Frame

variable {env : Env} {R : Txn → Txn → Prop} (hR : GateFrame env R)
include hR

theorem gate_bind {α β : Type} {a : Act α} {f : α → Act β}
    (ha : GateWithin R a) (hf : ∀ x, GateWithin R (f x)) :
    GateWithin R (a >>= f) :=
  Proc.within_bind hR.trans ha hf

theorem gate_pure {α : Type} (x : α) : GateWithin R (pure x : Act α) :=
  Proc.within_pure hR.refl x

theorem gate_get : GateWithin R (Proc.get : Act Txn) :=
  Proc.within_get hR.refl

theorem gate_stop {α : Type} {stop : Stop} (hstop : ∀ e, stop ≠ .raised e) :
    GateWithin R (Proc.raise stop : Act α) :=
  Proc.within_raise hR.refl fun e he => absurd he (hstop e)

theorem gate_throwExn {α : Type} {e : Exn} (he : Thrown e) :
    GateWithin R (throwExn e : Act α) :=
  Proc.within_raise hR.refl (thrownStop_raised he)

theorem gate_lift {α : Type} {r : Except Exn α}
    (hr : ∀ e, r = .error e → Thrown e) : GateWithin R (lift r) :=
  Proc.within_ofExcept hR.refl fun e he => thrownStop_raised (hr e he)

theorem gate_derefPtr {α : Type} (p : Option α) :
    GateWithin R (derefPtr p) := by
  cases p with
  | none => exact gate_stop hR fun _ h => by cases h
  | some x => exact gate_pure hR x

theorem gate_addHeaders {fields : List (Bytes × Bytes)}
    (hfields : ∀ f ∈ fields, f.1 ∈ gateHeaders) :
    GateWithin R (modifyResponse fun r =>
      fields.foldl (fun r h => r.addHeader h.1 h.2) r) :=
  Proc.within_modify fun s => hR.headers s fields hfields

/-- A limiter sets its headers on an admitted request. -/
theorem gate_limiter (view : LimitView) (l : Limiter) {next : Act Unit}
    (hnext : GateWithin R next) :
    GateWithin R (l.process env view next) := by
  cases l with
  | fixedWindow fw =>
      refine gate_bind hR (gate_get hR) fun _ => ?_
      refine gate_bind hR (gate_lift hR fun _ h =>
        (unadorned_makeKey h).thrown) fun _ => ?_
      split
      · exact gate_stop hR fun _ h => by cases h
      · dsimp only
        split
        · exact gate_throwExn hR (.http _ _ (Or.inr ⟨_, rfl⟩))
        · exact gate_stop hR fun _ h => by cases h
        · refine gate_bind hR (gate_addHeaders hR ?_) fun _ => hnext
          simp only [FixedWindow.admittedHeaders, List.forall_mem_cons]
          decide
  | tokenBucket tb =>
      refine gate_bind hR (gate_get hR) fun _ => ?_
      refine gate_bind hR (gate_lift hR fun _ h =>
        (unadorned_makeKey h).thrown) fun _ => ?_
      dsimp only
      split
      · exact gate_throwExn hR (.http _ _ (Or.inr ⟨_, rfl⟩))
      · exact gate_stop hR fun _ h => by cases h
      · refine gate_bind hR (gate_addHeaders hR ?_) fun _ => hnext
        simp only [TokenBucket.admittedHeaders, List.forall_mem_cons]
        decide

/-- A lookup leaves the table it has looked in. -/
theorem gate_getEndpoint (url : Bytes) :
    GateWithin R (getEndpointAct env url) := by
  intro s
  cases hlookup : s.router.getEndpoint env.fileExists url with
  | error e =>
      have hrun : getEndpointAct env url s = (.error (.raised e), s) := by
        unfold getEndpointAct
        simp only [Proc.bind_apply, Proc.get_apply, lift, hlookup,
          Proc.ofExcept_error]
      rw [hrun]
      exact ⟨hR.refl _, fun _ he => Except.error.inj he ▸
        thrownStop_raised (plain_getEndpoint hlookup).thrown⟩
  | ok found =>
      obtain ⟨p, router⟩ := found
      have hrun : getEndpointAct env url s
          = (.ok p, { s with router := router }) := by
        unfold getEndpointAct
        simp only [Proc.bind_apply, Proc.get_apply, lift, hlookup,
          Proc.ofExcept_ok, Proc.modify_apply, Proc.pure_apply]
      rw [hrun]
      exact ⟨hR.lookup s url p router hlookup, fun _ he => by cases he⟩

theorem gate_parserProcess {next : Act Unit} (hnext : GateWithin R next) :
    GateWithin R (parserProcess env next) := by
  unfold parserProcess
  split
  · apply gate_throwExn hR
    unfold readFailed
    dsimp only
    split
    · exact thrown_plain _ _
    · exact thrown_plain _ _
  -- One bind for each step of the parser. Nothing here writes to the
  -- client, and what it throws is plain.
  · refine gate_bind hR (gate_lift hR fun _ h =>
      (unadorned_extractEndpoint h).thrown) fun _ => ?_
    refine gate_bind hR (gate_getEndpoint hR _) fun _ => ?_
    refine gate_bind hR
      (gate_lift hR fun _ h => (plain_extractMethod h).thrown) fun _ => ?_
    refine gate_bind hR (gate_get hR) fun _ => ?_
    refine gate_bind hR (gate_derefPtr hR _) fun _ => ?_
    refine gate_bind hR (gate_lift hR fun _ h => (plain_field h).thrown)
      fun _ => ?_
    refine gate_bind hR (gate_lift hR fun _ h => (unadorned_extractArgs h).thrown)
      fun _ => ?_
    refine gate_bind hR
      (gate_lift hR fun _ h => (plain_extractHeaders h).thrown) fun _ => ?_
    refine gate_bind hR
      (gate_lift hR fun _ h => (plain_extractBody h).thrown) fun _ => ?_
    refine gate_bind hR (gate_lift hR fun _ h =>
      (unadorned_extractQueryString h).thrown) fun _ => ?_
    refine gate_bind hR ?_ fun _ => ?_
    · refine gate_bind hR (gate_getEndpoint hR _) fun _ => ?_
      refine gate_bind hR (gate_get hR) fun _ => ?_
      refine gate_bind hR (gate_derefPtr hR _) fun _ => ?_
      refine gate_bind hR (gate_lift hR fun _ h => (plain_field h).thrown)
        fun _ => ?_
      exact gate_pure hR _
    · refine gate_bind hR ?_ fun _ => hnext
      exact Proc.within_modify fun s => hR.request s _

theorem gate_rateLimiter {next : Act Unit} (hnext : GateWithin R next) :
    GateWithin R (rateLimiterProcess env next) := by
  refine gate_bind hR (gate_get hR) fun _ => ?_
  refine gate_bind hR (gate_derefPtr hR _) fun _ => ?_
  split
  · exact gate_limiter hR _ _ hnext
  · exact hnext

theorem gate_mintToken : GateWithin R (mintToken env) := by
  refine gate_bind hR (gate_get hR) fun _ => ?_
  split
  · exact gate_throwExn hR (thrown_plain _ _)
  · refine gate_bind hR (gate_derefPtr hR _) fun _ => ?_
    refine gate_bind hR (gate_lift hR fun _ h => (plain_field h).thrown)
      fun role => ?_
    refine gate_bind hR
      (Proc.within_modify fun s => hR.minted s _) fun _ => ?_
    have hcookie : ∀ f ∈ [(setCookie, jwtCookie (env.mint role))],
        f.1 ∈ gateHeaders := by
      simp only [List.forall_mem_cons]
      decide
    exact gate_addHeaders hR hcookie

theorem gate_authenticator {next : Act Unit} (hnext : GateWithin R next) :
    GateWithin R (authenticatorProcess env next) := by
  refine gate_bind hR (gate_get hR) fun _ => ?_
  refine gate_bind hR (gate_derefPtr hR _) fun _ => ?_
  refine gate_bind hR (gate_lift hR fun _ h =>
    (unadorned_validate h).thrown) fun _ => ?_
  refine gate_bind hR hnext fun _ => ?_
  split
  · exact gate_mintToken hR
  · exact gate_pure hR _

/-- However it ends, a pipeline without `ErrorHandler` stays within the
frame. -/
theorem gate_runPipeline {components : List Component}
    (h : ∀ c ∈ components, c.IsGate) :
    GateWithin R (runPipeline env components) := by
  induction components with
  | nil => exact gate_pure hR _
  | cons c rest ih =>
      have hnext := ih fun c' hc' => h c' (List.mem_cons_of_mem _ hc')
      have hc := h c (List.mem_cons_self ..)
      cases c with
      | logger => exact hnext
      | errorHandler => exact absurd hc (fun hfalse => hfalse)
      | parser => exact gate_parserProcess hR hnext
      | limiter l => exact gate_limiter hR _ l hnext
      | rateLimiter => exact gate_rateLimiter hR hnext
      | authenticator => exact gate_authenticator hR hnext

end Frame

-- ================================================================ quiet

/-- What the gate may change however it ends: the table grows, and the
events added are minted tokens. -/
def Quiet (s s' : Txn) : Prop :=
  Grown s.router s'.router
    ∧ ∃ events, s'.trace = s.trace ++ events
      ∧ ∀ e ∈ events, ∃ cookie, e = .minted cookie

theorem Quiet.refl (s : Txn) : Quiet s s :=
  ⟨Grown.refl _, [], (List.append_nil _).symm, by simp⟩

theorem Quiet.trans (s t u : Txn) (h : Quiet s t) (h' : Quiet t u) :
    Quiet s u := by
  obtain ⟨hgrown, ev, htrace, hall⟩ := h
  obtain ⟨hgrown', ev', htrace', hall'⟩ := h'
  refine ⟨hgrown.trans hgrown', ev ++ ev', ?_, ?_⟩
  · rw [htrace', htrace, List.append_assoc]
  · intro e he
    cases List.mem_append.mp he with
    | inl hmem => exact hall e hmem
    | inr hmem => exact hall' e hmem

/-- A change that touches neither table nor events is quiet. -/
theorem Quiet.of_eq {s s' : Txn} (hrouter : s'.router = s.router)
    (htrace : s'.trace = s.trace) : Quiet s s' :=
  ⟨hrouter ▸ Grown.refl _, [], by rw [htrace, List.append_nil], by simp⟩

/-- The gate is quiet. -/
theorem gateFrame_quiet : GateFrame env Quiet where
  refl := Quiet.refl
  trans := Quiet.trans
  headers _ _ _ := Quiet.of_eq rfl rfl
  lookup _ _ _ _ h :=
    ⟨(grown_getEndpoint h).2.1, [], (List.append_nil _).symm, by simp⟩
  request _ _ := Quiet.of_eq rfl rfl
  minted _ _ := ⟨Grown.refl _, [_], rfl, by simp⟩

/-- However it ends, a pipeline without `ErrorHandler` is quiet. -/
theorem gateQuiet_runPipeline {components : List Component}
    (h : ∀ c ∈ components, c.IsGate) :
    GateWithin Quiet (runPipeline env components) :=
  gate_runPipeline (gateFrame_quiet env) h

end CgiWebServer
