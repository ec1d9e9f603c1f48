/-
OPTIONS tells the methods that are served.

The handler lists the methods of the endpoint's entries, and the parser
refuses with a 405 exactly where there is no entry. Every other refusal
of the parser has another status, so a client can take the list at its
word; and since the table only grows, in every later session as well.
-/
import CgiWebServer.Proofs.Authorization
import CgiWebServer.Proofs.Parsing

namespace CgiWebServer

open Process

-- =============================================================== the list

/-- A list as a client reads it: cut at its commas, the pieces without
the space in front. -/
def readNames (v : Bytes) : List Bytes :=
  (v.splitOn 44).map (·.dropWhile (· = 32))

/-- A method is on the list. -/
def Lists (v : Bytes) (m : Method) : Prop := methodEnumToStr m ∈ readNames v

theorem comma_not_mem_method (m : Method) : 44 ∉ methodEnumToStr m := by
  cases m <;> decide

theorem dropWhile_method (m : Method) :
    (methodEnumToStr m).dropWhile (· = 32) = methodEnumToStr m := by
  cases m <;> rfl

/-- A list with a space behind each comma is one cut at commas whose
later pieces begin with a space. -/
theorem intercalate_comma_space (name : Bytes) (rest : List Bytes) :
    (bytes ", ").intercalate (name :: rest)
      = [44].intercalate (name :: rest.map (32 :: ·)) := by
  induction rest generalizing name with
  | nil => rfl
  | cons next rest ih =>
      rw [List.map_cons, List.intercalate_cons_cons,
        List.intercalate_cons_cons, ih]
      cases rest with
      | nil =>
          simp only [List.map_nil, List.intercalate_singleton,
            List.append_assoc]
          rfl
      | cons next' rest =>
          simp only [List.map_cons, List.intercalate_cons_cons,
            List.append_assoc]
          rfl

/-- What `get_methods_str` writes reads back. -/
theorem readNames_getMethodsStr {methods : List Method}
    (h : methods ≠ []) :
    readNames (OptionsHandler.getMethodsStr methods)
      = methods.map methodEnumToStr := by
  cases methods with
  | nil => exact absurd rfl h
  | cons m rest =>
      have hpieces : ∀ piece ∈ methodEnumToStr m
          :: (rest.map methodEnumToStr).map (32 :: ·), (44 : Byte) ∉ piece := by
        intro piece hpiece
        rcases List.mem_cons.mp hpiece with rfl | hpiece
        · exact comma_not_mem_method m
        · obtain ⟨name, hname, rfl⟩ := List.mem_map.mp hpiece
          obtain ⟨m', -, rfl⟩ := List.mem_map.mp hname
          simp [comma_not_mem_method m']
      unfold readNames OptionsHandler.getMethodsStr
      rw [List.map_cons, intercalate_comma_space,
        List.splitOn_intercalate 44 hpieces (List.cons_ne_nil _ _),
        List.map_cons, dropWhile_method, List.map_map, List.map_map]
      refine congrArg (methodEnumToStr m :: ·)
        (List.map_congr_left fun m' _ => ?_)
      exact dropWhile_method m'

theorem lists_iff {methods : List Method} (h : methods ≠ []) (m : Method) :
    Lists (OptionsHandler.getMethodsStr methods) m ↔ m ∈ methods := by
  have hinjective : Function.Injective methodEnumToStr :=
    Function.LeftInverse.injective methodStrToEnum_methodEnumToStr
  rw [Lists, readNames_getMethodsStr h,
    List.mem_map_of_injective hinjective]

-- ============================================================= the parser

/-- The parser refuses with a 405. -/
def RefusesMethod (env : Env) (router : Router) : Prop :=
  ∃ e s, Refuses .methodNotAllowed e
    ∧ ∀ next, parserProcess env next { router := router }
      = (.error (.raised e), s)

section Request

theorem mem_of_deref {router : Router} {url : Bytes} {ep : Endpoint}
    (hep : router.deref url = some ep) : url ∈ router.endpoints :=
  AList.lookup_isSome.mp (Option.isSome_iff_exists.mpr ⟨ep, hep⟩)

variable {env : Env} {router : Router} {url : Bytes} {m : Method}
  {ep : Endpoint}

/-- Of the failures on an endpoint that is in the table, only a missing
entry is a 405. -/
theorem parseFails_status (hurl : extractEndpoint env.buffer = .ok url)
    (hm : extractMethod env.buffer = .ok m) (hep : router.deref url = some ep)
    {entry : EndpointMethod} (hentry : ep.methods.lookup m = some entry)
    {e : Exn} (h : ParseFails env env.buffer router e) :
    ¬ Refuses .methodNotAllowed e := by
  have hlookup : router.getEndpoint env.fileExists url = .ok (url, router) :=
    if_pos (mem_of_deref hep)
  -- Only one of parse's refusals carries 405. Every other way to fail is
  -- excluded by its status, this one by the entry at hand.
  have hother : ∀ {status : Code}, Refuses status e →
      status ≠ .methodNotAllowed → ¬ Refuses .methodNotAllowed e :=
    fun hrefuses hne hmethod => hne (hrefuses.unique hmethod)
  cases h with
  | noTarget h => exact hother (plain_getRequestTarget h).refuses (by decide)
  | unknown _ h => exact hother (plain_getEndpoint h).refuses (by decide)
  | noMethod _ h => exact hother (plain_extractMethod h).refuses (by decide)
  | notAllowed hfound hm' hep' harg =>
      obtain rfl := Except.ok.inj (hurl.symm.trans hfound.endpoint)
      obtain rfl := Except.ok.inj (hm.symm.trans hm')
      obtain ⟨-, rfl⟩ := Prod.mk.inj
        (Except.ok.inj (hlookup.symm.trans hfound.lookup))
      obtain rfl := Option.some.inj (hep.symm.trans hep')
      rw [Endpoint.getArgType, Endpoint.field, hentry] at harg
      cases harg
  | badHeaders _ _ h =>
      exact hother (plain_extractHeaders h).refuses (by decide)
  | badArgs hasked h =>
      obtain ⟨query, hquery⟩ :=
        extractQueryString_of_endpoint hasked.found.endpoint
      cases argsFail_extractArgs hquery h with
      | malformed hrefuses _ => exact hother hrefuses (by decide)
      | unsupported hrefuses => exact hother hrefuses (by decide)
      | overflow he _ _ =>
          rintro ⟨ex, hex, -⟩
          rw [he] at hex
          cases hex

/-- A method is refused where the endpoint has no entry of it. -/
theorem refusesMethod_iff (hread : env.readEc = .ok)
    (hurl : extractEndpoint env.buffer = .ok url)
    (hm : extractMethod env.buffer = .ok m)
    (hep : router.deref url = some ep) :
    RefusesMethod env router ↔ m ∉ ep.getMethods := by
  have hfound : Found env env.buffer router url router :=
    ⟨hurl, if_pos (mem_of_deref hep)⟩
  cases hentry : ep.methods.lookup m with
  | none =>
      have hnot : m ∉ ep.methods := AList.lookup_eq_none.mp hentry
      have harg : ep.getArgType m
          = .error (ep.missing "argument type: " m) := by
        rw [Endpoint.getArgType, Endpoint.field, hentry]
      obtain ⟨router', hthrows⟩ := parser_throws hread { router := router }
        (.notAllowed hfound hm hep harg)
      exact iff_of_true ⟨_, _, ⟨_, rfl, rfl⟩, hthrows⟩ hnot
  | some entry =>
      have hlisted : m ∈ ep.methods :=
        AList.lookup_isSome.mp (Option.isSome_iff_exists.mpr ⟨entry, hentry⟩)
      refine iff_of_false ?_ (not_not.mpr hlisted)
      rintro ⟨e, s, hrefuses, hthrows⟩
      rcases parse_cases env env.buffer router with
        ⟨e', hfails⟩ | ⟨request, router', hreads⟩
      · obtain ⟨_, hthrows'⟩ := parser_throws hread { router := router } hfails
        have hsame := congrArg Prod.fst
          ((hthrows (pure ())).symm.trans (hthrows' (pure ())))
        obtain rfl := Stop.raised.inj (Except.error.inj hsame)
        exact parseFails_status hurl hm hep hentry hfails hrefuses
      · have hsame := congrArg Prod.fst ((hthrows (pure ())).symm.trans
          (parser_stores hread { router := router } (pure ()) hreads))
        cases hsame

end Request

-- ============================================================= the session

/-- The handler sends the list of the endpoint the request points at. -/
theorem optionsHandler_tells (env : Env) {s : Txn} {entry : EndpointMethod}
    (h : Routed s.request s.router entry) :
    ∃ ep accepted, s.router.deref s.request.endpointUrl = some ep
      ∧ ep.methods.lookup s.request.method = some entry
      ∧ (OptionsHandler.handle env s).2.trace
        = s.trace ++ [.head (optionsResponse env ep s) accepted] := by
  obtain ⟨ep, hep, hentry⟩ := h.endpoint_entry
  have htime (r : Response) : Txn.time { s with response := r } = s.time :=
    rfl
  refine ⟨ep, firstTaken (optionsResponse env ep s).serialise
    (env.socket s.time 0), hep, hentry, ?_⟩
  unfold OptionsHandler.handle
  simp only [Proc.bind_apply, Proc.get_apply, h.endpoint, hep, derefPtr,
    Proc.pure_apply, modifyResponse, Proc.modify_apply, htime]
  cases env.socket s.time 0 with
  | nil => rfl
  | cons a rest => rfl

/-- The header that carries it. -/
theorem lookup_allow (env : Env) (ep : Endpoint) (s : Txn) :
    (optionsResponse env ep s).headers.lookup (bytes "Allow")
      = some (OptionsHandler.getMethodsStr ep.getMethods) := by
  have hdate : bytes "Allow" ≠ bytes "Date" := by decide
  have hconnection : bytes "Allow" ≠ bytes "Connection" := by decide
  have hlength : bytes "Allow" ≠ bytes "Content-Length" := by decide
  unfold optionsResponse Response.build
  simp only [Response.addHeader_headers]
  rw [AList.lookup_insert_ne hdate, AList.lookup_insert_ne hconnection,
    AList.lookup_insert_ne hlength, AList.lookup_insert]

/-- A session in which OPTIONS ran has sent the methods of the endpoint
it asked for. -/
theorem options_sent {env : Env} {before after : List Limiter}
    {srv : Server} (hpipeline : srv.pipeline
      = .logger :: .errorHandler :: gateComponents before after)
    (hoptions : .handler .options ∈ (srv.serve env).trace) :
    ∃ url ep r accepted, extractEndpoint env.buffer = .ok url
      ∧ (srv.serve env).router.deref url = some ep ∧ ep.getMethods ≠ []
      ∧ .head r accepted ∈ (srv.serve env).trace
      ∧ r.headers.lookup (bytes "Allow")
        = some (OptionsHandler.getMethodsStr ep.getMethods) := by
  rcases serve_answered env hpipeline with
    ⟨stop, s₁, hrun, hanswered⟩ | ⟨s₁, entry, hrun, hpassed, hanswered⟩
  · -- a gate that refuses leads to no handler
    have hquiet := (gateQuiet_runPipeline env
      (isGate_gateComponents before after) { router := srv.router }).1
    rw [hrun] at hquiet
    obtain ⟨-, events, htrace₁, hminted⟩ := hquiet
    obtain ⟨-, -, pages, htrace, hpages⟩ := hanswered.emits
    rw [htrace, htrace₁] at hoptions
    rcases List.mem_append.mp hoptions with hgate | hpage
    · cases isHandler_minted hminted _ hgate
    · exact absurd (hpages _ hpage) fun hfalse => hfalse
  · obtain ⟨-, hrouter, pages, htrace, hpages⟩ := hanswered.emits
    obtain ⟨-, hrouter', own, hown, hevents⟩ :=
      finish_events env hpassed.routed
    -- Of all events only the handler's start is of a kind.
    have hhandler : entry.handler = some .options := by
      rw [htrace, hown] at hoptions
      rcases event_cases (Passed.trace_minted env hpassed) hevents hpages
        hoptions with ⟨_, h⟩ | ⟨kind, hkind, h⟩ | h | h
      · cases h
      · cases h
        exact hkind
      · cases h
      · cases h
    have hfinish : finish env s₁
        = OptionsHandler.handle env (begun .options s₁) := by
      rw [finish_routed env hpassed.routed, hhandler]
      rfl
    obtain ⟨ep, accepted, hep, hentry, hhead⟩ :=
      optionsHandler_tells env (s := begun .options s₁) hpassed.routed
    refine ⟨s₁.request.endpointUrl, ep, _, accepted,
      hpassed.accepts.endpointUrl, ?_, ?_, ?_,
      lookup_allow env ep (begun .options s₁)⟩
    · rw [hrouter, hrouter']
      exact hep
    -- The entry the gate has routed to is one of the methods.
    · intro hnone
      have hmem : s₁.request.method ∈ ep.getMethods :=
        AList.lookup_isSome.mp (Option.isSome_iff_exists.mpr ⟨entry, hentry⟩)
      rw [hnone] at hmem
      exact List.not_mem_nil hmem
    · rw [htrace, hfinish, hhead]
      simp

/-- For every configuration that loads and every sequence of sessions: a
session in which OPTIONS ran has sent an `Allow` header whose list, read
at its commas, is the truth about every later session. A request for the
same endpoint is refused with a 405 exactly if its method is not on the
list, whatever was served in between. -/
theorem allow_header_true {contentPath : Bytes} {serverConfig : XMLElement}
    {errorPages : AList fun _ : Code => Bytes} {srv : Server}
    (h : initializeServer contentPath serverConfig errorPages = .ok srv)
    (envs : List Env) {env : Env}
    (hoptions : .handler .options ∈ ((srv.after envs).serve env).trace) :
    ∃ url v r accepted, extractEndpoint env.buffer = .ok url
      ∧ .head r accepted ∈ ((srv.after envs).serve env).trace
      ∧ r.headers.lookup (bytes "Allow") = some v
      ∧ ∀ (later : List Env) (env' : Env) (m : Method),
          env'.readEc = .ok → extractEndpoint env'.buffer = .ok url →
          extractMethod env'.buffer = .ok m →
          (RefusesMethod env' ((srv.after envs).after (env :: later)).router
            ↔ ¬ Lists v m) := by
  obtain ⟨before, after, hpipeline, -⟩ := initializeServer_gate h
  have hlater := (grown_after hpipeline envs).1.trans hpipeline
  obtain ⟨url, ep, r, accepted, hurl, hep, hsome, hhead, hallow⟩ :=
    options_sent hlater hoptions
  refine ⟨url, _, r, accepted, hurl, hhead, hallow, ?_⟩
  intro later env' m hread hurl' hm
  have hnext : ({ srv.after envs with
      router := ((srv.after envs).serve env).router } : Server).pipeline
      = .logger :: .errorHandler :: gateComponents before after := hlater
  have hgrown : Grown ((srv.after envs).serve env).router
      ((srv.after envs).after (env :: later)).router :=
    (grown_after hnext later).2
  rw [refusesMethod_iff hread hurl' hm (hgrown.kept url ep hep),
    lists_iff hsome]

/-- An endpoint that serves GET and OPTIONS. -/
def pollConfig : XMLElement :=
  .mk (bytes "ServerConfig") [] [.mk (bytes "Routes") []
    [.mk (bytes "Route")
      [(bytes "method", bytes "GET"), (bytes "endpoint", bytes "/poll"),
        (bytes "script", bytes "poll.py")] [],
     .mk (bytes "Route")
      [(bytes "method", bytes "OPTIONS"),
        (bytes "endpoint", bytes "/poll")] []]]

/-- A client that asks what it serves, and one that posts to it. -/
def askingEnv : Env where
  readData := bytes "OPTIONS /poll HTTP/1.1\r\nHost: localhost\r\n\r\n"
  globalLimit := { exchanges := [⟨true, 0⟩, ⟨false, 1⟩] }

def postingEnv : Env where
  readData := bytes "POST /poll HTTP/1.1\r\nHost: localhost\r\n\r\n"

/-- The post is not on the list, and refused. -/
theorem allow_header_true_poll :
    ∃ srv, initializeServer [] pollConfig ∅ = .ok srv
      ∧ RefusesMethod postingEnv ((srv.after []).after [askingEnv]).router := by
  have hloads : initializeServer [] pollConfig ∅ = .ok _ := rfl
  obtain ⟨url, v, r, accepted, hurl, hhead, hallow, htrue⟩ :=
    allow_header_true hloads [] (show Event.handler .options
      ∈ (Server.serve _ askingEnv).trace from List.mem_of_head? rfl)
  have hpoll : extractEndpoint askingEnv.buffer = .ok (bytes "/poll") := by
    decide
  obtain rfl := Except.ok.inj (hpoll.symm.trans hurl)
  refine ⟨_, hloads, (htrue [] postingEnv .post rfl (by decide)
    (by decide)).mpr ?_⟩
  rcases List.mem_cons.mp hhead with hfirst | hsecond
  · cases hfirst
  · cases List.mem_singleton.mp hsecond
    have hlist : v = bytes "OPTIONS, GET" :=
      Option.some.inj (hallow.symm.trans rfl)
    rw [hlist, Lists]
    decide

end CgiWebServer
