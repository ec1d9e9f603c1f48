/-
The authorization gate, over whole runs of a server.

# One transaction

The pipelines `loadPipeline` builds are `Logger`, `ErrorHandler` and a
gate of limiters around the parser, with the per-route limiter and the
authenticator at its end (`loadPipeline_gate`). A gate that returns has
passed every check (`gate_ok`), and only then does `ErrorHandler` run the
handler, once, of the very entry the checks were about: handler,
resource, access role and limiter are all read through the same pointer
into a table that nothing behind the parser changes.

# A sequence of them

Sessions only let the table grow (`grown_after`), so an entry that was
configured is the same for every later request.
-/
import CgiWebServer.Proofs.Gate
import CgiWebServer.Proofs.RouteTable

namespace CgiWebServer

open Process

variable (env : Env)

-- ================================================================ the gate

/-- The components below `ErrorHandler`: limiters, the parser, limiters
again, and the two components every pipeline ends with. -/
def gateComponents (before after : List Limiter) : List Component :=
  before.map .limiter ++ .parser
    :: (after.map .limiter ++ [.rateLimiter, .authenticator])

/-- A limiter whose key is the client's address. -/
def Limiter.ByIp : Limiter → Prop
  | .fixedWindow s => s.makeKey = .ip
  | .tokenBucket s => s.makeKey = .ip

/-- Such a limiter's decision does not need the request. -/
theorem Limiter.ByIp.admits {l : Limiter} (h : l.ByIp) {view : LimitView}
    {request request' : Request} (hadmits : l.Admits env view request) :
    l.Admits env view request' := by
  cases l with
  | fixedWindow s =>
      refine ⟨⟨env.ip, ?_⟩, hadmits.2⟩
      rw [show s.makeKey = .ip from h]
      rfl
  | tokenBucket s =>
      refine ⟨⟨env.ip, ?_⟩, hadmits.2⟩
      rw [show s.makeKey = .ip from h]
      rfl

theorem getKeyFunc_ip {algo : XMLElement}
    (h : (getKeyFunc algo).2 = true) : (getKeyFunc algo).1 = .ip := by
  unfold getKeyFunc at h ⊢
  split
  next => rfl
  next key hkey =>
    rw [hkey] at h
    dsimp only at h ⊢
    split
    next hheader =>
      rw [if_pos hheader] at h
      split
      next => rfl
      next hname =>
        rw [if_neg hname] at h
        cases h
    next hheader =>
      rw [if_neg hheader] at h
      split
      next hxff =>
        rw [if_pos hxff] at h
        cases h
      next hxff =>
        rw [if_neg hxff] at h
        split
        next hquery =>
          rw [if_pos hquery] at h
          cases h
        next => rfl

/-- `*uses_ip` is what it says. -/
theorem loadLimiter_ip {algo : XMLElement} {l : Limiter}
    (h : loadLimiter algo = .ok (l, true)) : l.ByIp := by
  rw [loadLimiter_eq] at h
  cases halgo : algorithmOf algo with
  | fixedWindow =>
      rw [halgo] at h
      have hpair : loadFixedWindow algo = (l, true) := Except.ok.inj h
      have hip : (getKeyFunc algo).2 = true := congrArg Prod.snd hpair
      rw [← show (loadFixedWindow algo).1 = l from congrArg Prod.fst hpair]
      exact getKeyFunc_ip hip
  | tokenBucket =>
      rw [halgo] at h
      have hpair : loadTokenBucket algo = (l, true) := Except.ok.inj h
      have hip : (getKeyFunc algo).2 = true := congrArg Prod.snd hpair
      rw [← show (loadTokenBucket algo).1 = l from congrArg Prod.fst hpair]
      exact getKeyFunc_ip hip
  | unsupported =>
      rw [halgo] at h
      cases h

/-- A global limiter that is put before the parser needs no request. -/
theorem loadGlobalRateLimit_ip {serverConfig : XMLElement} {l : Limiter}
    (h : loadGlobalRateLimit serverConfig = .ok (some l, true)) :
    l.ByIp := by
  unfold loadGlobalRateLimit at h
  split at h
  next =>
    cases h
    rfl
  next =>
    split at h
    next =>
      cases h
      rfl
    next =>
      split at h
      next => cases h
      next =>
        obtain ⟨⟨limiter, usesIp⟩, hload, h⟩ := Loads.bind_ok h
        cases h
        exact loadLimiter_ip hload

/-- Every loaded pipeline is of this form, and what stands before the
parser needs no request. -/
theorem loadPipeline_gate {serverConfig : XMLElement}
    {pipeline : List Component}
    (h : loadPipeline serverConfig = .ok pipeline) :
    ∃ before after, pipeline
        = .logger :: .errorHandler :: gateComponents before after
      ∧ ∀ l ∈ before, l.ByIp := by
  obtain ⟨⟨limiter, usesIp⟩, hload, h⟩ := Loads.bind_ok h
  cases h
  cases usesIp with
  | true =>
      refine ⟨limiter.toList, [], by simp [pipelineOf, gateComponents], ?_⟩
      intro l hl
      obtain rfl := Option.mem_toList.mp hl
      exact loadGlobalRateLimit_ip hload
  | false =>
      exact ⟨[], limiter.toList, by simp [pipelineOf, gateComponents],
        by simp⟩

/-- The pipeline of an initialized server is. -/
theorem initializeServer_gate {contentPath : Bytes}
    {serverConfig : XMLElement} {errorPages : AList fun _ : Code => Bytes}
    {srv : Server}
    (h : initializeServer contentPath serverConfig errorPages = .ok srv) :
    ∃ before after, srv.pipeline
        = .logger :: .errorHandler :: gateComponents before after
      ∧ ∀ l ∈ before, l.ByIp :=
  loadPipeline_gate (initializeServer_pipeline h)

theorem isGate_gateComponents (before after : List Limiter) :
    ∀ c ∈ gateComponents before after, c.IsGate := by
  intro c hc
  simp only [gateComponents, List.mem_append, List.mem_map, List.mem_cons,
    List.not_mem_nil, or_false] at hc
  rcases hc with ⟨l, -, rfl⟩ | rfl | ⟨l, -, rfl⟩ | rfl | rfl <;>
    exact True.intro

/-- The cookie minted on an authenticator. -/
def tokenOf (entry : EndpointMethod) : Bytes :=
  jwtCookie (env.mint entry.authRole)

/-- What a gate that returned has passed: the transaction before it, the
one behind it, and the entry the checks were about. -/
structure Passed (before after : List Limiter) (s s' : Txn)
    (entry : EndpointMethod) : Prop where
  accepts : ParserAccepts env entry.args s'.request
  lookup : s.router.getEndpoint env.fileExists s'.request.endpointUrl
    = .ok (s'.request.endpointUrl, s'.router)
  routed : Routed s'.request s'.router entry
  before : ∀ l ∈ before, l.Admits env env.globalLimit s.request
  after : ∀ l ∈ after, l.Admits env env.globalLimit s'.request
  route : ∀ l, entry.rateLimiter = some l →
    l.Admits env env.routeLimit s'.request
  validated : Validated env s'.request entry
  minted : (entry.isAuthenticator = false ∧ s'.trace = s.trace)
    ∨ (entry.isAuthenticator = true
      ∧ ∃ r, s'.response = Response.addHeader r setCookie (tokenOf env entry)
        ∧ s'.trace = s.trace ++ [.minted (tokenOf env entry)])

/-- A row of limiters that lets the rest return has admitted the
request, each of them. -/
theorem limiters_ok {ls : List Limiter} {rest : List Component}
    {s s' : Txn}
    (h : runPipeline env (ls.map .limiter ++ rest) s = (.ok (), s')) :
    (∀ l ∈ ls, l.Admits env env.globalLimit s.request)
      ∧ ∃ r, runPipeline env rest { s with response := r }
          = (.ok (), s') := by
  induction ls generalizing s with
  | nil => exact ⟨by simp, s.response, h⟩
  | cons l ls ih =>
      obtain ⟨hadmits, r, hnext⟩ := limiter_ok env h
      obtain ⟨hall, r', hrest⟩ := ih hnext
      refine ⟨fun l' hl' => ?_, r', hrest⟩
      rcases List.mem_cons.mp hl' with rfl | hmem
      · exact hadmits
      · exact hall l' hmem

/-- A gate that returned has passed all of its checks, on one entry. -/
theorem gate_ok {before after : List Limiter} {s s' : Txn}
    (h : runPipeline env (gateComponents before after) s = (.ok (), s')) :
    ∃ entry, Passed env before after s s' entry := by
  obtain ⟨hbefore, r, hparser⟩ := limiters_ok env h
  obtain ⟨request, router, entry, hlookup, haccepts, hrouted, hnext⟩ :=
    parser_ok env hparser
  obtain ⟨hafter, r', hroute⟩ := limiters_ok env hnext
  obtain ⟨entry', hentry', hlimit, r'', hauth⟩ := rateLimiter_ok env hroute
  obtain ⟨entry'', hentry'', hvalid, hminted⟩ := authenticator_ok env hauth
  -- All three look the entry up through one pointer in one table.
  have hptr := hrouted.route_entry
  obtain rfl := Option.some.inj (hptr.symm.trans hentry')
  obtain rfl := Option.some.inj (hptr.symm.trans hentry'')
  refine ⟨entry, ?_⟩
  rcases hminted with ⟨hno, rfl⟩ | ⟨hyes, ep, role, hep, hrole, rfl⟩
  · exact ⟨haccepts, hlookup, hrouted, hbefore, hafter, hlimit,
      validated_of_validate env hvalid, Or.inl ⟨hno, rfl⟩⟩
  · -- The role is read through the endpoint, from the same entry.
    obtain ⟨ep', hep', hentryOf⟩ := hrouted.endpoint_entry
    have hsame := hrouted.endpoint_deref.trans hep'
    obtain rfl := Option.some.inj (hsame.symm.trans hep)
    obtain rfl : role = entry.authRole := by
      obtain ⟨found, hfound, rfl⟩ := Endpoint.field_ok hrole
      rw [Option.some.inj (hfound.symm.trans hentryOf)]
    exact ⟨haccepts, hlookup, hrouted, hbefore, hafter, hlimit,
      validated_of_validate env hvalid, Or.inr ⟨hyes, r'', rfl, rfl⟩⟩

-- ======================================================== behind the gate

/-- The events of a handler that serves an entry: it opens or spawns the
entry's resource and nothing else. -/
def HandlerEvent (entry : EndpointMethod) : Event → Prop
  | .opened path => path = cStr entry.resource
  | .spawned script _ => script = cStr entry.resource
  | .head _ _ | .body _ => True
  | _ => False

/-- The events of an error page. -/
def PageEvent : Event → Prop
  | .openedPage _ | .head _ _ | .body _ => True
  | _ => False

/-- Whatever handler runs on a request that is routed to an entry, it
stays with that entry. -/
theorem only_run (kind : HandlerKind) {s : Txn} {entry : EndpointMethod}
    (h : Routed s.request s.router entry) :
    Emits (HandlerEvent entry) s (kind.run env s).2
      ∧ ∀ stop, (kind.run env s).1 = .error stop → ThrownStop stop := by
  have hhead : ∀ r b, HandlerEvent entry (.head r b) :=
    fun _ _ => True.intro
  have hbody : ∀ b, HandlerEvent entry (.body b) := fun _ => True.intro
  have hrelay : Only (HandlerEvent entry) (relayScript env entry.resource) :=
    only_bind only_get fun _ => only_streamScript env hhead rfl true
  have hbuild : Only (HandlerEvent entry)
      (HeadHandler.buildResponse env entry) := only_buildResponse env rfl
  cases kind with
  | get =>
      rw [show HandlerKind.get.run env s = _ from getHandler_routed env h]
      split
      · exact hrelay s
      · exact only_handleFile env hhead hbody rfl s
  | post =>
      rw [show HandlerKind.post.run env s = _ from postHandler_routed env h]
      split
      · exact hrelay s
      · exact only_throwExn (thrown_plain _ _) s
  | head =>
      rw [show HandlerKind.head.run env s = _ from headHandler_routed env h]
      split
      · exact only_throwExn (thrown_plain _ _) s
      · exact only_bind hbuild (fun _ => only_streamHead env hhead) s
  | options => exact only_options env hhead s

/-- What the finisher of a routed request adds: the start of the entry's
handler, if it has one, and that handler's events. -/
theorem finish_events {s : Txn} {entry : EndpointMethod}
    (h : Routed s.request s.router entry) :
    (finish env s).2.request = s.request
      ∧ (finish env s).2.router = s.router
      ∧ ∃ own, (finish env s).2.trace
            = s.trace ++ entry.handler.toList.map .handler ++ own
          ∧ ∀ e ∈ own, HandlerEvent entry e := by
  rw [finish_routed env h]
  cases entry.handler with
  | none => exact ⟨rfl, rfl, [], by simp, by simp⟩
  | some kind =>
      obtain ⟨hrequest, hrouter, own, htrace, hown⟩ :=
        (only_run env kind (s := begun kind s) h).1
      exact ⟨hrequest, hrouter, own, htrace, hown⟩

/-- The finisher throws the server's exceptions only. -/
theorem finish_thrown {s : Txn} {entry : EndpointMethod}
    (h : Routed s.request s.router entry) :
    ∀ stop, (finish env s).1 = .error stop → ThrownStop stop := by
  rw [finish_routed env h]
  cases entry.handler with
  | none => exact fun stop hstop => by cases hstop
  | some kind =>
      exact (only_run env kind (s := begun kind s) h).2

-- ============================================================= a session

/-- What `ErrorHandler` does behind a state: nothing, or it answers one of
the server's exceptions. -/
def Answered (s t : Txn) : Prop :=
  t = s ∨ ∃ e, Thrown e ∧ t = (answerError env e s).2

/-- Either adds the events of a page at most. -/
theorem Answered.emits {s t : Txn} (h : Answered env s t) :
    Emits PageEvent s t := by
  rcases h with rfl | ⟨e, -, rfl⟩
  · exact Emits.refl _
  · exact (only_answerError env (fun _ _ => True.intro)
      (fun _ => True.intro) (fun _ => True.intro) e s).1

/-- `ErrorHandler` behind its `next` and the finisher. -/
theorem errorHandler_answered (next : Act Unit) (s : Txn)
    (hthrown : ∀ stop, ((next >>= fun _ => finish env) s).1 = .error stop →
      ThrownStop stop) :
    Answered env ((next >>= fun _ => finish env) s).2
      (errorHandlerProcess env next s).2 := by
  rw [errorHandler_apply]
  cases hrun : (next >>= fun _ => finish env) s with
  | mk result s' =>
      rw [hrun] at hthrown
      cases result with
      | ok u => exact Or.inl rfl
      | error stop =>
          cases stop with
          | raised e => exact Or.inr ⟨e, hthrown _ rfl e rfl, rfl⟩
          | pending => exact Or.inl rfl
          | crash => exact Or.inl rfl

/-- A session is `ErrorHandler` over the gate. -/
theorem serve_eq {before after : List Limiter} {srv : Server}
    (hpipeline : srv.pipeline
      = .logger :: .errorHandler :: gateComponents before after) :
    srv.serve env
      = (errorHandlerProcess env
          (runPipeline env (gateComponents before after))
          { router := srv.router }).2 := by
  unfold Server.serve transact
  rw [hpipeline]
  rfl

/-- How a session goes: the gate stops it and at most an error page is
sent, or the gate passes with one entry, the finisher runs, and at most
an error page is sent. -/
theorem serve_answered {before after : List Limiter} {srv : Server}
    (hpipeline : srv.pipeline
      = .logger :: .errorHandler :: gateComponents before after) :
    (∃ stop s₁, runPipeline env (gateComponents before after)
          { router := srv.router } = (.error stop, s₁)
        ∧ Answered env s₁ (srv.serve env))
      ∨ ∃ s₁ entry, runPipeline env (gateComponents before after)
            { router := srv.router } = (.ok (), s₁)
          ∧ Passed env before after { router := srv.router } s₁ entry
          ∧ Answered env (finish env s₁).2 (srv.serve env) := by
  have hgate := (gateQuiet_runPipeline env
    (isGate_gateComponents before after) { router := srv.router }).2
  rw [serve_eq env hpipeline]
  -- What the gate's run comes to decides what `ErrorHandler` answers.
  cases hrun : runPipeline env (gateComponents before after)
      { router := srv.router } with
  | mk result s₁ =>
      rw [hrun] at hgate
      cases result with
      | error stop =>
          have hbind := Proc.bind_of_error (f := fun _ => finish env) hrun
          refine Or.inl ⟨stop, s₁, rfl, ?_⟩
          have hanswered := errorHandler_answered env
            (runPipeline env (gateComponents before after))
            { router := srv.router }
            (fun stop' hstop' => by
              rw [hbind] at hstop'
              exact hgate stop' hstop')
          rw [hbind] at hanswered
          exact hanswered
      | ok u =>
          have hbind := Proc.bind_of_ok (f := fun _ => finish env) hrun
          obtain ⟨entry, hpassed⟩ := gate_ok env hrun
          refine Or.inr ⟨s₁, entry, rfl, hpassed, ?_⟩
          have hanswered := errorHandler_answered env
            (runPipeline env (gateComponents before after))
            { router := srv.router }
            (fun stop' hstop' => by
              rw [hbind] at hstop'
              exact finish_thrown env hpassed.routed stop' hstop')
          rw [hbind] at hanswered
          exact hanswered

/-- A session's events, in their order. Either the gate stops the
request, having minted at most, or it passes with one entry, and that
entry's handler runs; at most an error page is sent behind either. -/
theorem serve_cases {before after : List Limiter} {srv : Server}
    (hpipeline : srv.pipeline
      = .logger :: .errorHandler :: gateComponents before after) :
    (∃ s₁ pages, Quiet { router := srv.router } s₁
        ∧ (srv.serve env).router = s₁.router
        ∧ (srv.serve env).trace = s₁.trace ++ pages
        ∧ ∀ e ∈ pages, PageEvent e)
      ∨ ∃ s₁ entry own pages,
          Passed env before after { router := srv.router } s₁ entry
            ∧ (srv.serve env).request = s₁.request
            ∧ (srv.serve env).router = s₁.router
            ∧ (srv.serve env).trace
              = s₁.trace ++ entry.handler.toList.map .handler ++ own
                ++ pages
            ∧ (∀ e ∈ own, HandlerEvent entry e)
            ∧ ∀ e ∈ pages, PageEvent e := by
  rcases serve_answered env hpipeline with
    ⟨stop, s₁, hrun, hanswered⟩ | ⟨s₁, entry, -, hpassed, hanswered⟩
  · obtain ⟨-, hrouter, pages, htrace, hpages⟩ := hanswered.emits
    have hquiet := (gateQuiet_runPipeline env
      (isGate_gateComponents before after) { router := srv.router }).1
    rw [hrun] at hquiet
    exact Or.inl ⟨s₁, pages, hquiet, hrouter, htrace, hpages⟩
  · obtain ⟨hrequest, hrouter, pages, htrace, hpages⟩ := hanswered.emits
    obtain ⟨hrequest', hrouter', own, htrace', hown⟩ :=
      finish_events env hpassed.routed
    rw [htrace'] at htrace
    exact Or.inr ⟨s₁, entry, own, pages, hpassed, hrequest.trans hrequest',
      hrouter.trans hrouter', htrace, hown, hpages⟩

/-- The events that start a handler. -/
def isHandler : Event → Bool
  | .handler _ => true
  | _ => false

/-- What a handler that ran was allowed by: an entry of the table that
accepted the request, admitted it, validated it, and is the one whose
handler and resource were used. -/
structure Authorized (srv : Server) (t : Txn) (kind : HandlerKind)
    (entry : EndpointMethod) : Prop where
  accepts : ParserAccepts env entry.args t.request
  routed : Routed t.request t.router entry
  limiters : ∀ l, Component.limiter l ∈ srv.pipeline →
    l.Admits env env.globalLimit t.request
  route : ∀ l, entry.rateLimiter = some l →
    l.Admits env env.routeLimit t.request
  validated : Validated env t.request entry
  handler : entry.handler = some kind
  opened : ∀ path, .opened path ∈ t.trace → path = cStr entry.resource
  spawned : ∀ script args, .spawned script args ∈ t.trace →
    script = cStr entry.resource

/-- Minted tokens and pages start no handler. -/
theorem isHandler_minted {events : List Event}
    (h : ∀ e ∈ events, ∃ cookie, e = .minted cookie) :
    ∀ e ∈ events, isHandler e = false := by
  intro e he
  obtain ⟨cookie, rfl⟩ := h e he
  rfl

theorem isHandler_page {e : Event} (h : PageEvent e) :
    isHandler e = false := by
  cases e <;> first | rfl | exact absurd h (fun hfalse => hfalse)

theorem isHandler_handlerEvent {entry : EndpointMethod} {e : Event}
    (h : HandlerEvent entry e) : isHandler e = false := by
  cases e <;> first | rfl | exact absurd h (fun hfalse => hfalse)

/-- Events of other kinds are not counted. -/
theorem countP_isHandler_eq_zero {events : List Event}
    (h : ∀ e ∈ events, isHandler e = false) :
    events.countP isHandler = 0 := by
  rw [List.countP_eq_zero]
  intro e he
  rw [h e he]
  decide

/-- The gate's part of a trace. -/
theorem Passed.trace_minted {before after : List Limiter} {r : Router}
    {s₁ : Txn} {entry : EndpointMethod}
    (h : Passed env before after { router := r } s₁ entry) :
    ∀ e ∈ s₁.trace, ∃ cookie, e = .minted cookie := by
  intro e he
  rcases h.minted with ⟨-, htrace⟩ | ⟨-, _, -, htrace⟩
  · rw [htrace] at he
    cases he
  · rw [htrace] at he
    exact ⟨_, List.mem_singleton.mp he⟩

/-- Every event of a session that passed the gate is of its one entry. -/
theorem event_cases {gate own pages : List Event} {entry : EndpointMethod}
    (hgate : ∀ e ∈ gate, ∃ cookie, e = .minted cookie)
    (hown : ∀ e ∈ own, HandlerEvent entry e)
    (hpages : ∀ e ∈ pages, PageEvent e) {e : Event}
    (he : e ∈ gate ++ entry.handler.toList.map .handler ++ own ++ pages) :
    (∃ cookie, e = .minted cookie)
      ∨ (∃ kind, entry.handler = some kind ∧ e = .handler kind)
      ∨ HandlerEvent entry e ∨ PageEvent e := by
  simp only [List.mem_append, List.mem_map, Option.mem_toList] at he
  rcases he with ((he | ⟨kind, hkind, rfl⟩) | he) | he
  · exact Or.inl (hgate e he)
  · exact Or.inr (Or.inl ⟨kind, hkind, rfl⟩)
  · exact Or.inr (Or.inr (Or.inl (hown e he)))
  · exact Or.inr (Or.inr (Or.inr (hpages e he)))

/-- A file opened for a request is that of the entry it is routed to. -/
theorem serve_opened {before after : List Limiter} {srv : Server}
    (hpipeline : srv.pipeline
      = .logger :: .errorHandler :: gateComponents before after)
    {path : Bytes} (h : .opened path ∈ (srv.serve env).trace) :
    ∃ entry, Routed (srv.serve env).request (srv.serve env).router entry
      ∧ extractEndpoint env.buffer = .ok (srv.serve env).request.endpointUrl
      ∧ path = cStr entry.resource := by
  rcases serve_cases env hpipeline with
    ⟨s₁, pages, ⟨-, events, htrace₁, hminted⟩, -, htrace, hpages⟩
    | ⟨s₁, entry, own, pages, hpassed, hrequest, hrouter, htrace, hown,
        hpages⟩
  · rw [htrace, htrace₁] at h
    rcases List.mem_append.mp h with h | h
    · obtain ⟨cookie, hcookie⟩ := hminted _ h
      cases hcookie
    · cases hpages _ h
  · rw [htrace] at h
    refine ⟨entry, ?_, ?_, ?_⟩
    · rw [hrequest, hrouter]
      exact hpassed.routed
    · rw [hrequest]
      exact hpassed.accepts.endpointUrl
    · rcases event_cases (Passed.trace_minted env hpassed) hown hpages h
        with ⟨_, h⟩ | ⟨_, _, h⟩ | h | h
      · cases h
      · cases h
      · exact h
      · cases h

/-- At most the entry's own handler starts. -/
theorem countP_handlers_le {gate own pages : List Event}
    {entry : EndpointMethod}
    (hgate : ∀ e ∈ gate, ∃ cookie, e = .minted cookie)
    (hown : ∀ e ∈ own, HandlerEvent entry e)
    (hpages : ∀ e ∈ pages, PageEvent e) :
    (gate ++ entry.handler.toList.map Event.handler ++ own ++ pages).countP
        isHandler ≤ 1 := by
  simp only [List.countP_append]
  rw [countP_isHandler_eq_zero (isHandler_minted hgate),
    countP_isHandler_eq_zero fun e he => isHandler_handlerEvent (hown e he),
    countP_isHandler_eq_zero fun e he => isHandler_page (hpages e he)]
  cases entry.handler with
  | none => simp
  | some kind => simp [isHandler]

/-- The limiters of a loaded pipeline admit the request that passes them:
those in front of the parser look at the address only. -/
theorem Passed.limiters {before after : List Limiter} {srv : Server}
    {s₁ : Txn} {entry : EndpointMethod}
    (hpipeline : srv.pipeline
      = .logger :: .errorHandler :: gateComponents before after)
    (hip : ∀ l ∈ before, l.ByIp)
    (h : Passed env before after { router := srv.router } s₁ entry) :
    ∀ l, Component.limiter l ∈ srv.pipeline →
      l.Admits env env.globalLimit s₁.request := by
  intro l hl
  rw [hpipeline] at hl
  simp only [gateComponents, List.mem_cons, List.mem_append, List.mem_map,
    Component.limiter.injEq, exists_eq_right, reduceCtorEq, false_or,
    List.not_mem_nil, or_false] at hl
  rcases hl with hl | hl
  · exact (hip l hl).admits env (h.before l hl)
  · exact h.after l hl

/-- The handler of a session that passed the gate was allowed by the
entry. -/
theorem authorized_of_passed {before after : List Limiter} {srv : Server}
    (hpipeline : srv.pipeline
      = .logger :: .errorHandler :: gateComponents before after)
    (hip : ∀ l ∈ before, l.ByIp)
    {s₁ : Txn} {entry : EndpointMethod} {own pages : List Event}
    (hpassed : Passed env before after { router := srv.router } s₁ entry)
    (hrequest : (srv.serve env).request = s₁.request)
    (hrouter : (srv.serve env).router = s₁.router)
    (htrace : (srv.serve env).trace
      = s₁.trace ++ entry.handler.toList.map .handler ++ own ++ pages)
    (hown : ∀ e ∈ own, HandlerEvent entry e)
    (hpages : ∀ e ∈ pages, PageEvent e) {kind : HandlerKind}
    (hkind : .handler kind ∈ (srv.serve env).trace) :
    Authorized env srv (srv.serve env) kind entry := by
  -- Every event behind the gate is of the one entry.
  have hevent : ∀ e ∈ (srv.serve env).trace,
      (∃ cookie, e = .minted cookie)
        ∨ (∃ kind, entry.handler = some kind ∧ e = .handler kind)
        ∨ HandlerEvent entry e ∨ PageEvent e := by
    intro e he
    rw [htrace] at he
    exact event_cases (Passed.trace_minted env hpassed) hown hpages he
  refine ⟨?_, ?_, ?_, ?_, ?_, ?_, ?_, ?_⟩
  · rw [hrequest]
    exact hpassed.accepts
  · rw [hrequest, hrouter]
    exact hpassed.routed
  · rw [hrequest]
    exact hpassed.limiters env hpipeline hip
  · rw [hrequest]
    exact hpassed.route
  · rw [hrequest]
    exact hpassed.validated
  · rcases hevent _ hkind with ⟨_, h⟩ | ⟨k, hk, h⟩ | h | h
    · cases h
    · cases h
      exact hk
    · cases h
    · cases h
  · intro path hpath
    rcases hevent _ hpath with ⟨_, h⟩ | ⟨_, _, h⟩ | h | h
    · cases h
    · cases h
    · exact h
    · cases h
  · intro script args hspawned
    rcases hevent _ hspawned with ⟨_, h⟩ | ⟨_, _, h⟩ | h | h
    · cases h
    · cases h
    · exact h
    · cases h

/-- A session on a server whose pipeline is a loaded one: at most one
handler, and what it was allowed by. -/
theorem serve_authorized {before after : List Limiter} {srv : Server}
    (hpipeline : srv.pipeline
      = .logger :: .errorHandler :: gateComponents before after)
    (hip : ∀ l ∈ before, l.ByIp) :
    (srv.serve env).trace.countP isHandler ≤ 1
      ∧ ∀ kind, .handler kind ∈ (srv.serve env).trace →
        ∃ entry, Authorized env srv (srv.serve env) kind entry := by
  rcases serve_cases env hpipeline with
    ⟨s₁, pages, ⟨-, events, htrace₁, hminted⟩, -, htrace, hpages⟩
    | ⟨s₁, entry, own, pages, hpassed, hrequest, hrouter, htrace, hown,
        hpages⟩
  · have hnone : ∀ e ∈ (srv.serve env).trace, isHandler e = false := by
      intro e he
      rw [htrace, htrace₁] at he
      rcases List.mem_append.mp he with he' | he'
      · exact isHandler_minted hminted e he'
      · exact isHandler_page (hpages e he')
    refine ⟨by rw [countP_isHandler_eq_zero hnone]; omega, ?_⟩
    intro kind hkind
    cases hnone _ hkind
  · refine ⟨?_, fun kind hkind => ⟨entry, ?_⟩⟩
    · rw [htrace]
      exact countP_handlers_le (Passed.trace_minted env hpassed) hown hpages
    · exact authorized_of_passed env hpipeline hip hpassed hrequest hrouter
        htrace hown hpages hkind

-- ============================================================ sessions

/-- A session only lets the table grow. -/
theorem grown_serve {before after : List Limiter} {srv : Server}
    (hpipeline : srv.pipeline
      = .logger :: .errorHandler :: gateComponents before after) :
    Grown srv.router (srv.serve env).router := by
  rcases serve_cases env hpipeline with
    ⟨s₁, _, hquiet, hrouter, _⟩ | ⟨s₁, _, _, _, hpassed, _, hrouter, _⟩
  · rw [hrouter]
    exact hquiet.1
  · rw [hrouter]
    exact (grown_getEndpoint hpassed.lookup).2.1

/-- So does any sequence of them, and the pipeline stays. -/
theorem grown_after {before after : List Limiter} {srv : Server}
    (hpipeline : srv.pipeline
      = .logger :: .errorHandler :: gateComponents before after)
    (envs : List Env) :
    (srv.after envs).pipeline = srv.pipeline
      ∧ Grown srv.router (srv.after envs).router := by
  induction envs generalizing srv with
  | nil => exact ⟨rfl, Grown.refl _⟩
  | cons env envs ih =>
      have hnext : ({ srv with router := (srv.serve env).router } :
          Server).pipeline
          = .logger :: .errorHandler :: gateComponents before after :=
        hpipeline
      obtain ⟨hsame, hgrown⟩ := ih hnext
      exact ⟨hsame, (grown_serve env hpipeline).trans hgrown⟩

/-- For every configuration that loads and every sequence of sessions, of
whatever bytes: the next session runs at most one handler, only one that
was authorized, and every entry that was configured is as it was. -/
theorem handler_authorized {contentPath : Bytes}
    {serverConfig : XMLElement} {errorPages : AList fun _ : Code => Bytes}
    {srv : Server}
    (h : initializeServer contentPath serverConfig errorPages = .ok srv)
    (envs : List Env) :
    ((srv.after envs).serve env).trace.countP isHandler ≤ 1
      ∧ (∀ kind, .handler kind ∈ ((srv.after envs).serve env).trace →
        ∃ entry, Authorized env (srv.after envs)
          ((srv.after envs).serve env) kind entry)
      ∧ ∀ endpoint ep, srv.router.endpoints.lookup endpoint = some ep →
        ((srv.after envs).serve env).router.endpoints.lookup endpoint
          = some ep := by
  obtain ⟨before, after, hpipeline, hip⟩ := initializeServer_gate h
  obtain ⟨hsame, hgrown⟩ := grown_after hpipeline envs
  have hlater := hsame.trans hpipeline
  obtain ⟨hcount, hallowed⟩ := serve_authorized env hlater hip
  refine ⟨hcount, hallowed, fun endpoint ep hep => ?_⟩
  exact (hgrown.trans (grown_serve env hlater)).kept endpoint ep hep

/-- A configuration with one protected route. -/
def memberConfig : XMLElement :=
  .mk (bytes "ServerConfig") [] [.mk (bytes "Routes") []
    [.mk (bytes "Route")
      [(bytes "method", bytes "GET"), (bytes "endpoint", bytes "/members"),
        (bytes "script", bytes "members.py"),
        (bytes "protected", bytes "true"),
        (bytes "access_role", bytes "member")] []]]

/-- A member's request to it. -/
def memberEnv : Env where
  readData := bytes
    "GET /members HTTP/1.1\r\nHost: localhost\r\nCookie: jwt=token\r\n\r\n"
  jwt := fun _ => .ok { role := some (bytes "member") }
  roles := (∅ : AList fun _ : Bytes => Role).insert (bytes "member")
    { title := bytes "member" }
  globalLimit := { exchanges := [⟨true, 0⟩, ⟨false, 1⟩] }

/-- The member is let through to the route's script. -/
theorem handler_authorized_member :
    ∃ srv, initializeServer [] memberConfig ∅ = .ok srv
      ∧ ∃ entry,
        Authorized memberEnv srv (srv.serve memberEnv) .get entry := by
  have hloads : initializeServer [] memberConfig ∅ = .ok _ := rfl
  obtain ⟨-, hallowed, -⟩ := handler_authorized memberEnv hloads []
  exact ⟨_, hloads, hallowed .get (List.mem_of_head? rfl)⟩

/-- The server of the one protected route. -/
def memberServer : Server :=
  ((initializeServer [] memberConfig ∅).toOption).getD emptyServer

theorem initializeServer_member :
    initializeServer [] memberConfig ∅ = .ok memberServer := rfl

/-- The member's request, to a script that prints some chunks. -/
def printsEnv (chunks : List Bytes) : Env :=
  { memberEnv with
    script := { reads := chunks.map .chunk ++ [.eof] }
    socket := fun _ _ => [⟨.ok, 0⟩] }

/-- A head that says there is no such thing. -/
def missingHead : Bytes :=
  bytes "HTTP/1.1 404 Not Found\r\nContent-Length: 0\r\n\r\n"

end CgiWebServer
