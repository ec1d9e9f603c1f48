/-
What a route table that was loaded holds.

A `Route` element with a method writes one entry (`loadRoute_ok`), so
what stands under an endpoint and a method is what the last such element
wrote, or what the constructor put there
(`derefRoute_initializeServer`).

Every entry stands under its own method and has the handler of that
method, and an authenticator without a script has no resource at all: the
resource of a configured route is its script's path or nothing. Both are
kept by every route that is loaded (`wellRouted_loadRoute`), so they hold
of the table the server starts with.
-/
import CgiWebServer.Config
import CgiWebServer.Lib.Loads

namespace CgiWebServer

-- ================================================================ entries

/-- The `Route` elements. -/
def routeElements (serverConfig : XMLElement) : List XMLElement :=
  match serverConfig.firstChildElement (bytes "Routes") with
  | none => []
  | some routes => routes.childElements (bytes "Route")

/-- The endpoint and the method of a `Route` element. -/
def routePtr (route : XMLElement) : RoutePtr where
  endpoint :=
    let endpointUrl := attributeOrEmpty route "endpoint"
    if endpointUrl.isEmpty then bytes "/" else endpointUrl
  method := methodStrToEnum (attributeOrEmpty route "method")

/-- The limiter it has once it is loaded. -/
def routeLimiter (route : XMLElement) : Option Limiter :=
  match loadRouteLimiter route with
  | .error _ => none
  | .ok limiter => limiter

/-- The entry it is loaded as, if its method is one. -/
def loadedEntry (contentPath : Bytes) (route : XMLElement) :
    Option EndpointMethod :=
  match assignHandler (routePtr route).method with
  | .error _ => none
  | .ok kind =>
      some { routeMethod contentPath route with
        rateLimiter := routeLimiter route
        handler := some kind }

/-- The table with one more entry. -/
def Router.withEntry (r : Router) (endpoint : Bytes)
    (entry : EndpointMethod) : Router :=
  { r with
    endpoints := r.endpoints.insert endpoint
      (((r.endpoints.lookup endpoint).getD {}).addMethod entry) }

variable {contentPath : Bytes} {serverConfig route : XMLElement}
  {errorPages : AList fun _ : Code => Bytes} {r r' : Router} {srv : Server}

/-- The entry of a loaded route is its method's, with its limiter and its
handler. -/
theorem loadedEntry_ok {entry : EndpointMethod}
    (h : loadedEntry contentPath route = some entry) :
    ∃ kind, assignHandler (routePtr route).method = .ok kind
      ∧ entry = { routeMethod contentPath route with
          rateLimiter := routeLimiter route
          handler := some kind } := by
  unfold loadedEntry at h
  cases hassigned : assignHandler (routePtr route).method with
  | error e =>
      rw [hassigned] at h
      cases h
  | ok kind =>
      rw [hassigned] at h
      cases h
      exact ⟨kind, rfl, rfl⟩

/-- What did not throw has a value. -/
theorem orThrow_ok {α : Type} {x : Except Exn α} {a : α}
    (h : orThrow x = .ok a) : x = .ok a := by
  cases x with
  | error e => cases h
  | ok b =>
      cases h
      rfl

/-- A method has a handler, if it is one. -/
theorem loadedEntry_of_method (contentPath : Bytes)
    (h : (routePtr route).method ≠ .notAllowed) :
    ∃ kind, loadedEntry contentPath route
      = some { routeMethod contentPath route with
          rateLimiter := routeLimiter route
          handler := some kind } := by
  unfold loadedEntry
  cases hm : (routePtr route).method with
  | notAllowed => exact absurd hm h
  | get => exact ⟨.get, rfl⟩
  | head => exact ⟨.head, rfl⟩
  | post => exact ⟨.post, rfl⟩
  | options => exact ⟨.options, rfl⟩

theorem method_of_loadedEntry {entry : EndpointMethod}
    (h : loadedEntry contentPath route = some entry) :
    (routePtr route).method ≠ .notAllowed := by
  obtain ⟨kind, hassigned, -⟩ := loadedEntry_ok h
  intro hnone
  rw [hnone] at hassigned
  cases hassigned

/-- Loading a route adds its entry, or leaves the table alone. -/
theorem loadRoute_ok (h : loadRoute contentPath r route = .ok r') :
    (loadedEntry contentPath route = none ∧ r' = r)
      ∨ ∃ entry, loadedEntry contentPath route = some entry
        ∧ r' = r.withEntry (routePtr route).endpoint entry := by
  unfold loadRoute at h
  unfold loadedEntry
  dsimp only at h
  have hmethod : (routeMethod contentPath route).m
      = (routePtr route).method := rfl
  by_cases hnone : (routePtr route).method = .notAllowed
  · left
    rw [hmethod, hnone, if_neg (not_not.mpr rfl)] at h
    cases h
    rw [hnone]
    exact ⟨rfl, rfl⟩
  · right
    rw [hmethod, if_pos hnone] at h
    obtain ⟨limiter, hlimiter, h⟩ := Loads.bind_ok h
    obtain ⟨kind, hkind, h⟩ := Loads.bind_ok (orThrow_ok h)
    cases h
    have hassigned : assignHandler (routePtr route).method = .ok kind :=
      hkind
    have hloaded : routeLimiter route = limiter := by
      rw [routeLimiter, hlimiter]
    rw [hassigned, hloaded]
    exact ⟨_, rfl, rfl⟩

/-- The routes are the loop over their elements. -/
theorem loadRoutes_eq (contentPath : Bytes) (serverConfig : XMLElement)
    (r : Router) :
    loadRoutes contentPath serverConfig r
      = (routeElements serverConfig).foldlM (loadRoute contentPath) r := by
  unfold loadRoutes routeElements
  cases serverConfig.firstChildElement (bytes "Routes") with
  | none => rfl
  | some routes => rfl

/-- An initialized server: its routes, and its pipeline. -/
theorem initializeServer_ok
    (h : initializeServer contentPath serverConfig errorPages = .ok srv) :
    (routeElements serverConfig).foldlM (loadRoute contentPath)
        { Router.initial with errorPages := errorPages } = .ok srv.router
      ∧ loadPipeline serverConfig = .ok srv.pipeline := by
  obtain ⟨router, hroutes, h⟩ := Loads.bind_ok h
  obtain ⟨pipeline, hpipeline, h⟩ := Loads.bind_ok h
  cases h
  rw [loadRoutes_eq] at hroutes
  exact ⟨hroutes, hpipeline⟩

/-- The pipeline of an initialized server is a loaded one. -/
theorem initializeServer_pipeline
    (h : initializeServer contentPath serverConfig errorPages = .ok srv) :
    loadPipeline serverConfig = .ok srv.pipeline :=
  (initializeServer_ok h).2

-- ================================================================ lookups

/-- What a `Route` element writes for an endpoint and a method. -/
def routeWrite (contentPath : Bytes) (p : RoutePtr) (route : XMLElement) :
    Option EndpointMethod :=
  if routePtr route = p then loadedEntry contentPath route else none

/-- The last write to an endpoint and a method is that of the last element
that has them. -/
theorem lastWrite_route_iff {els : List XMLElement} {p : RoutePtr}
    {entry : EndpointMethod} :
    Loads.lastWrite (routeWrite contentPath p) els = some entry
      ↔ ∃ before route after, els = before ++ route :: after
        ∧ routePtr route = p ∧ loadedEntry contentPath route = some entry
        ∧ ∀ later ∈ after, routePtr later ≠ p := by
  rw [Loads.lastWrite_eq_some]
  constructor
  · intro h
    obtain ⟨before, route, after, hsplit, hwrite, hlater⟩ := h
    have hp : routePtr route = p := by
      by_contra hne
      cases (if_neg hne).symm.trans hwrite
    have hloaded : loadedEntry contentPath route = some entry :=
      (if_pos hp).symm.trans hwrite
    refine ⟨before, route, after, hsplit, hp, hloaded, ?_⟩
    -- A later element that has them would be loaded too.
    intro later hin heq
    have hmethod := method_of_loadedEntry hloaded
    rw [hp, ← heq] at hmethod
    obtain ⟨kind, hkind⟩ := loadedEntry_of_method contentPath hmethod
    have hnone : loadedEntry contentPath later = none :=
      (if_pos heq).symm.trans (hlater later hin)
    cases hnone.symm.trans hkind
  · intro h
    obtain ⟨before, route, after, hsplit, hp, hloaded, hlater⟩ := h
    exact ⟨before, route, after, hsplit, (if_pos hp).trans hloaded,
      fun later hin => if_neg (hlater later hin)⟩

/-- An entry is added under its endpoint and its own method. -/
theorem derefRoute_withEntry (r : Router) (endpoint : Bytes)
    (entry : EndpointMethod) (p : RoutePtr) :
    (r.withEntry endpoint entry).derefRoute p
      = if (⟨endpoint, entry.m⟩ : RoutePtr) = p then some entry
        else r.derefRoute p := by
  obtain ⟨url, m⟩ := p
  unfold Router.derefRoute Router.deref Router.withEntry
  by_cases hurl : url = endpoint
  · subst hurl
    simp only [AList.lookup_insert, Option.bind_some, Endpoint.addMethod]
    by_cases hm : m = entry.m
    · subst hm
      rw [AList.lookup_insert, if_pos rfl]
    · rw [AList.lookup_insert_ne hm, if_neg (by simp [Ne.symm hm])]
      cases r.endpoints.lookup url with
      | none => rfl
      | some ep => rfl
  · simp only [AList.lookup_insert_ne hurl]
    rw [if_neg (by simp [Ne.symm hurl])]

/-- The entry of an endpoint and a method after a route is loaded. -/
theorem derefRoute_loadRoute (h : loadRoute contentPath r route = .ok r')
    (p : RoutePtr) :
    r'.derefRoute p
      = (routeWrite contentPath p route).or (r.derefRoute p) := by
  unfold routeWrite
  rcases loadRoute_ok h with ⟨hnone, rfl⟩ | ⟨entry, hentry, rfl⟩
  · rw [hnone, ite_self, Option.none_or]
  · have hm : entry.m = (routePtr route).method := by
      obtain ⟨kind, -, rfl⟩ := loadedEntry_ok hentry
      rfl
    rw [derefRoute_withEntry, hm, hentry]
    by_cases hp : routePtr route = p
    · rw [if_pos hp, if_pos hp, Option.some_or]
    · rw [if_neg hp, if_neg hp, Option.none_or]

/-- The entries the server starts with. -/
theorem derefRoute_initializeServer
    (h : initializeServer contentPath serverConfig errorPages = .ok srv)
    (p : RoutePtr) :
    srv.router.derefRoute p
      = (Loads.lastWrite (routeWrite contentPath p)
          (routeElements serverConfig)).or (Router.initial.derefRoute p) := by
  have hlast := Loads.foldlM_lastWrite (fun r : Router => r.derefRoute p)
    (routeWrite contentPath p)
    (fun _ _ _ hload => derefRoute_loadRoute hload p)
    (initializeServer_ok h).1
  exact hlast

/-- An entry of the root's page: it asks for no token and hands none
out. -/
structure RootEntry (p : RoutePtr) (entry : EndpointMethod) : Prop where
  endpoint : p.endpoint = bytes "/"
  resource : entry.resource = bytes "public/index.html"
  isProtected : entry.isProtected = false
  isAuthenticator : entry.isAuthenticator = false

/-- The constructor's entries are those of the root's page. -/
theorem derefRoute_initial {p : RoutePtr} {entry : EndpointMethod}
    (h : Router.initial.derefRoute p = some entry) : RootEntry p entry := by
  obtain ⟨ep, hep, hentry⟩ := Option.bind_eq_some_iff.mp h
  have hurl : p.endpoint = bytes "/" := by
    by_contra hne
    have hinsert : Router.initial.deref p.endpoint = none :=
      AList.lookup_insert_ne hne
    cases hep.symm.trans hinsert
  have hinsert : Router.initial.deref p.endpoint
      = some Router.rootEndpoint := by
    rw [hurl]
    exact AList.lookup_insert _
  obtain rfl := Option.some.inj (hinsert.symm.trans hep)
  cases hm : p.method with
  | get | head =>
      rw [hm] at hentry
      cases hentry
      exact ⟨hurl, rfl, rfl, rfl⟩
  | post | options | notAllowed =>
      rw [hm] at hentry
      cases hentry

/-- A `Route` element in force: its method is one, and no later element
has its endpoint and its method. -/
def RouteInForce (serverConfig route : XMLElement) : Prop :=
  ∃ before after,
    routeElements serverConfig = before ++ route :: after
      ∧ (routePtr route).method ≠ .notAllowed
      ∧ ∀ later ∈ after, routePtr later ≠ routePtr route

/-- The entries of a kind that only `Route` elements make are those of the
elements in force that make it. -/
theorem exists_entry_iff
    (h : initializeServer contentPath serverConfig errorPages = .ok srv)
    {P : EndpointMethod → Prop} {Q : XMLElement → Prop}
    (hinitial : ∀ p entry, Router.initial.derefRoute p = some entry →
      ¬ P entry)
    (hloaded : ∀ route entry, loadedEntry contentPath route = some entry →
      (P entry ↔ Q route)) :
    (∃ p entry, srv.router.derefRoute p = some entry ∧ P entry)
      ↔ ∃ route, RouteInForce serverConfig route ∧ Q route := by
  constructor
  · intro h
    obtain ⟨p, entry, hentry, hkind⟩ := h
    rw [derefRoute_initializeServer h] at hentry
    -- An entry is the last route's that writes there, or was there from the
    -- start and is excluded.
    cases hlast : Loads.lastWrite (routeWrite contentPath p)
        (routeElements serverConfig) with
    | none =>
        rw [hlast, Option.none_or] at hentry
        exact absurd hkind (hinitial p entry hentry)
    | some last =>
        rw [hlast, Option.some_or] at hentry
        obtain rfl := Option.some.inj hentry
        obtain ⟨before, route, after, hsplit, rfl, hwrite, hlater⟩ :=
          lastWrite_route_iff.mp hlast
        exact ⟨route, ⟨before, after, hsplit, method_of_loadedEntry hwrite,
          hlater⟩, (hloaded route last hwrite).mp hkind⟩
  · intro h
    obtain ⟨route, ⟨before, after, hsplit, hmethod, hlater⟩, hkind⟩ := h
    obtain ⟨kind, hwrite⟩ := loadedEntry_of_method contentPath hmethod
    have hlast := lastWrite_route_iff.mpr
      ⟨before, route, after, hsplit, rfl, hwrite, hlater⟩
    refine ⟨routePtr route, _, ?_, (hloaded route _ hwrite).mpr hkind⟩
    rw [derefRoute_initializeServer h, hlast]
    rfl

-- ============================================================ well routed

/-- What holds of the entry of a method. -/
structure WellRouted (m : Method) (entry : EndpointMethod) : Prop where
  handler : ∃ kind, assignHandler m = .ok kind ∧ entry.handler = some kind
  resource : entry.isAuthenticator = true → entry.hasScript = false →
    entry.resource = []

/-- It holds of every entry of an endpoint. -/
def Endpoint.WellRouted (ep : Endpoint) : Prop :=
  ∀ m entry, ep.methods.lookup m = some entry →
    CgiWebServer.WellRouted m entry

/-- It holds of every entry of a table. -/
def Router.WellRouted (r : Router) : Prop :=
  ∀ endpoint ep, r.endpoints.lookup endpoint = some ep → ep.WellRouted

theorem wellRouted_empty : ({} : Endpoint).WellRouted := by
  intro m entry h
  cases h

/-- A method is added under its own name. -/
theorem Endpoint.WellRouted.addMethod {ep : Endpoint} (h : ep.WellRouted)
    {method : EndpointMethod}
    (hmethod : CgiWebServer.WellRouted method.m method) :
    (ep.addMethod method).WellRouted := by
  intro m entry hentry
  by_cases hm : m = method.m
  · subst hm
    have hsame : some method = some entry :=
      (AList.lookup_insert ep.methods).symm.trans hentry
    rw [← Option.some.inj hsame]
    exact hmethod
  · exact h m entry ((AList.lookup_insert_ne hm).symm.trans hentry)

/-- The table of the constructor. -/
theorem wellRouted_initial : Router.initial.WellRouted := by
  intro endpoint ep h
  by_cases hroot : endpoint = bytes "/"
  · subst hroot
    have hep : some Router.rootEndpoint = some ep :=
      (AList.lookup_insert _).symm.trans h
    rw [← Option.some.inj hep]
    refine (wellRouted_empty.addMethod ?_).addMethod ?_
    · exact ⟨⟨.get, rfl, rfl⟩, fun hauth => by cases hauth⟩
    · exact ⟨⟨.head, rfl, rfl⟩, fun hauth => by cases hauth⟩
  · have hnone : some ep = none :=
      h.symm.trans (AList.lookup_insert_ne hroot)
    cases hnone

/-- A table with one more entry. -/
theorem Router.WellRouted.withEntry {r : Router} (h : r.WellRouted)
    (endpoint : Bytes) {entry : EndpointMethod}
    (hentry : CgiWebServer.WellRouted entry.m entry) :
    (r.withEntry endpoint entry).WellRouted := by
  intro key ep hep
  by_cases hkey : key = endpoint
  · subst hkey
    have hnew := (AList.lookup_insert _).symm.trans hep
    rw [← Option.some.inj hnew]
    have hold : ((r.endpoints.lookup key).getD {}).WellRouted := by
      cases hlookup : r.endpoints.lookup key with
      | none => exact wellRouted_empty
      | some ep' => exact h key ep' hlookup
    exact hold.addMethod hentry
  · exact h key ep ((AList.lookup_insert_ne hkey).symm.trans hep)

/-- The entry of a loaded route. -/
theorem wellRouted_loadedEntry {entry : EndpointMethod}
    (h : loadedEntry contentPath route = some entry) :
    WellRouted entry.m entry := by
  obtain ⟨kind, hassigned, rfl⟩ := loadedEntry_ok h
  refine ⟨⟨kind, hassigned, rfl⟩, fun _ hscript => ?_⟩
  have hempty : (!(routeMethod contentPath route).resource.isEmpty)
      = false := hscript
  simpa using hempty

/-- A route that is loaded keeps the table so. -/
theorem wellRouted_loadRoute (h : r.WellRouted)
    (hload : loadRoute contentPath r route = .ok r') : r'.WellRouted := by
  rcases loadRoute_ok hload with ⟨-, rfl⟩ | ⟨entry, hentry, rfl⟩
  · exact h
  · exact h.withEntry _ (wellRouted_loadedEntry hentry)

/-- The table an initialized server starts with. -/
theorem wellRouted_initializeServer
    (h : initializeServer contentPath serverConfig errorPages = .ok srv) :
    srv.router.WellRouted :=
  Loads.foldlM_done (P := fun _ r => r.WellRouted)
    (fun _ _ _ _ hrouted hload => wellRouted_loadRoute hrouted hload)
    (initializeServer_ok h).1 wellRouted_initial

end CgiWebServer
