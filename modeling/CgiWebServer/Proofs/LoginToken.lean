/-
When a minted token reaches the client.

# The order of effects

The authenticator mints while the pipeline runs, and only behind the
pipeline does `ErrorHandler` run the handler, so the token is in the
response before the script has been started. Error pages begin with a new
response (`answerError_bare`); what a handler sends has the token.

# The exact condition

For a route that is an authenticator, the token stays back on every
script outcome but a success exactly if the route is not an OPTIONS route
and the script does not hand the token out: it would have to be spawned
and have a first read that is relayed, either without a `Set-Cookie` of
its own, or with one and the very token printed by a chunk that is
relayed (`token_only_on_success_iff`).
-/
import CgiWebServer.Proofs.Authorization
import CgiWebServer.Proofs.Cookies
import CgiWebServer.Proofs.RouteTable

namespace CgiWebServer

open Process

-- ============================================================ statements

/-- The bytes that were accepted of a head carry the cookie. -/
def Carries (cookie : Bytes) (r : Response) (accepted : Bytes) : Prop :=
  Sets cookie r ∧ Response.headerLine setCookie cookie <:+: accepted

/-- A script's output: its chunks up to the end or an error. -/
def output : List ScriptRead → Bytes
  | .chunk data :: rest => data ++ output rest
  | _ => []

/-- The status code of a script's output is a success. -/
def ScriptSucceeds (script : ScriptRun) : Prop :=
  isSuccessCode (extractStatusCode (output script.reads)) = true

instance (script : ScriptRun) : Decidable (ScriptSucceeds script) :=
  inferInstanceAs (Decidable (_ = true))

/-- A token that was minted is carried to the client only if the script
was spawned and succeeds. -/
def OnlyOnSuccess (script : ScriptRun) (trace : List Event) : Prop :=
  ∀ cookie, .minted cookie ∈ trace →
    ∀ r accepted, .head r accepted ∈ trace → Carries cookie r accepted →
      (∃ path args, .spawned path args ∈ trace) ∧ ScriptSucceeds script

/-- A script hands the response's cookie out: it is spawned, and its
first read is relayed without a cookie of its own or it prints the same
cookie. -/
def HandsOut (cookie : Bytes) (script : ScriptRun) : Prop :=
  script.fails = none
    ∧ ((∃ data rest headers, script.reads = .chunk data :: rest
          ∧ Relayable data headers ∧ headers.lookup setCookie = none)
      ∨ Prints cookie script.reads)

section Handlers

variable (env : Env) {cookie : Bytes}

-- ======================================================= staying behind

/-- The first chunk does not bring the cookie on its way: it is not
relayed at all, or it sets another one, and nothing behind it sets this
one. -/
theorem firstChunk_bare {data : Bytes} {rest : List ScriptRead}
    (hown : ∀ headers, Relayable data headers →
      headers.lookup setCookie ≠ none)
    (hprints : ¬ Prints cookie (.chunk data :: rest)) (script : Bytes)
    (s : Txn) :
    AddsNoCookie cookie s (scriptLoop env script
      (some (relayChunk env true)) (.chunk data :: rest) s).2 := by
  rw [scriptLoop_chunk]
  cases hparse : relayParse data with
  | error e =>
      obtain ⟨r, hrun⟩ := relayChunk_of_error env hparse s
      rw [Proc.bind_of_error hrun]
      exact .refl cookie s
  | ok parsed =>
      obtain ⟨body, headers⟩ := parsed
      have hrelayable : Relayable data headers := ⟨body, hparse⟩
      obtain ⟨v, hv⟩ := Option.ne_none_iff_exists'.mp (hown _ hrelayable)
      have hne : v ≠ cookie := by
        rintro rfl
        exact hprints
          ⟨[], data, rest, headers, rfl, by simp, hrelayable, hv⟩
      -- The chunk's own cookie replaces the one in the response.
      have hreplaced : ¬ Sets cookie (relayed data body headers s).response := by
        unfold relayed relayResponse
        refine not_sets_addHeader (by decide) fun hsets => hne ?_
        unfold Sets at hsets
        rw [Response.lookup_addHeaders, hv, Option.some_or] at hsets
        exact Option.some.inj hsets
      obtain ⟨hafter, hfirst⟩ := bare_afterHead env _ hreplaced
      have hrun := relayChunk_of_ok env hparse s
      have hstart : AddsNoCookie cookie s
          (afterHead env (relayed data body headers s)) := hfirst
      cases hend : writeEndOf
          (headRun env (relayed data body headers s)).result with
      | error stop =>
          rw [hend] at hrun
          rw [Proc.bind_of_error hrun]
          exact hstart
      | ok u =>
          rw [hend] at hrun
          rw [Proc.bind_of_ok hrun]
          have hrest : ¬ Prints cookie rest :=
            fun h => hprints (h.cons hrelayable)
          exact hstart.trans
            ((bare_scriptLoop env script hrest _).1 hafter).2

/-- A script that does not hand the cookie out is relayed without it,
also where the response has it. -/
theorem relayScript_bare (h : ¬ HandsOut cookie env.script)
    (script : Bytes) (s : Txn) :
    AddsNoCookie cookie s (relayScript env script s).2 := by
  have hspawn : AddsNoCookie cookie s
      (spawn env script s.request.args s).2 := by
    have honly : Only (fun e => ∃ p args, e = .spawned p args)
        (spawn env script s.request.args) := only_spawn env ⟨_, _, rfl⟩
    refine .of_emits (fun r accepted hP => ?_) (honly s).1
    obtain ⟨_, _, hP⟩ := hP
    cases hP
  -- The cookie goes out only with a head relayed from a first chunk; every
  -- other end of the script has none.
  cases hfails : env.script.fails with
  | some step =>
      obtain ⟨e, s', hrun⟩ :=
        spawn_of_some env hfails script s.request.args s
      rw [hrun] at hspawn
      show AddsNoCookie cookie s
        (streamScript env script s.request.args _ s).2
      unfold streamScript
      rw [Proc.bind_of_error hrun]
      exact hspawn
  | none =>
      rw [spawn_of_none env hfails] at hspawn
      rw [relayScript_of_none env hfails]
      apply AddsNoCookie.trans hspawn
      cases hreads : env.script.reads with
      | nil => exact .refl cookie _
      | cons read rest =>
          cases read with
          | eof => exact .refl cookie _
          | error => exact .refl cookie _
          | chunk data =>
              refine firstChunk_bare env (fun headers hrelayable hnone =>
                h ⟨hfails, Or.inl ?_⟩) (fun hprints =>
                h ⟨hfails, Or.inr ?_⟩) script _
              · exact ⟨data, rest, headers, hreads, hrelayable, hnone⟩
              · rw [hreads]
                exact hprints

/-- An authenticator's handler, other than that of OPTIONS, keeps the
cookie back unless it is relayed by its script. -/
theorem run_bare {kind : HandlerKind} {s : Txn} {entry : EndpointMethod}
    (hrouted : Routed s.request s.router entry) (hkind : kind ≠ .options)
    (hresource : entry.hasScript = false → entry.resource = [])
    (hkept : kind ≠ .head → entry.hasScript = true →
      ¬ HandsOut cookie env.script) :
    AddsNoCookie cookie s (kind.run env s).2 := by
  -- Without a script there is no resource, and no type for its name, so no
  -- file is sent.
  have hnoType : entry.hasScript = false →
      determineContentType entry.resource = none := by
    intro hscript
    rw [hresource hscript]
    rfl
  cases kind with
  | options => exact absurd rfl hkind
  | post =>
      rw [show HandlerKind.post.run env s = _ from postHandler_routed env
        hrouted]
      cases hscript : entry.hasScript with
      | true =>
          exact relayScript_bare env (hkept (by decide) hscript) _ s
      | false => exact .refl cookie s
  | get =>
      rw [show HandlerKind.get.run env s = _ from getHandler_routed env
        hrouted]
      cases hscript : entry.hasScript with
      | true =>
          exact relayScript_bare env (hkept (by decide) hscript) _ s
      | false =>
          have hfile : (GetHandler.handleFile env entry s).2 = s := by
            unfold GetHandler.handleFile
            simp only [Proc.bind_apply, Proc.get_apply, hnoType hscript]
            rfl
          rw [if_neg (by decide), hfile]
          exact .refl cookie s
  | head =>
      rw [show HandlerKind.head.run env s = _ from headHandler_routed env
        hrouted]
      cases hscript : entry.hasScript with
      | true => exact .refl cookie s
      | false =>
          rw [if_neg (by decide)]
          have honly : Only (fun e => ∃ p, e = .opened p)
              (HeadHandler.buildResponse env entry) :=
            only_buildResponse env ⟨_, rfl⟩
          have hstops : ∃ stop s', HeadHandler.buildResponse env entry s
              = (.error stop, s') := by
            rw [buildResponse_routed env hrouted, hnoType hscript]
            split <;> exact ⟨_, _, rfl⟩
          obtain ⟨stop, s', hrun⟩ := hstops
          have hopened := (honly s).1
          rw [Proc.bind_of_error hrun]
          rw [hrun] at hopened
          refine .of_emits (fun r accepted hP => ?_) hopened
          obtain ⟨_, hP⟩ := hP
          cases hP

-- ============================================================== handing out

/-- A socket that takes every write whole. -/
def working : Nat → Nat → List WriteAnswer := fun _ _ => [⟨.ok, 0⟩]

/-- A head that sets the cookie is in the trace, and the socket took it
whole. -/
def HandedOut (cookie : Bytes) (trace : List Event) : Prop :=
  ∃ r, Sets cookie r ∧ .head r r.serialise ∈ trace

theorem HandedOut.mono {P : Event → Prop} {s s' : Txn}
    (h : HandedOut cookie s.trace) (hemits : Emits P s s') :
    HandedOut cookie s'.trace := by
  obtain ⟨r, hsets, hmem⟩ := h
  obtain ⟨-, -, events, htrace, -⟩ := hemits
  exact ⟨r, hsets, by rw [htrace]; exact List.mem_append_left _ hmem⟩

/-- On a working socket a head arrives whole. -/
theorem headRun_working (hsocket : env.socket = working) (s : Txn) :
    writeEndOf (headRun env s).result = .ok ()
      ∧ (headRun env s).accepted = (built env s).serialise := by
  unfold headRun
  rw [hsocket]
  obtain ⟨hresult, haccepted⟩ := coWriteAll_ok (built env s).serialise
  refine ⟨?_, haccepted⟩
  rw [show (coWriteAll (built env s).serialise (working s.time 0)).result
    = _ from hresult]
  rfl

/-- On a working socket a head that sets the cookie hands it out. -/
theorem handedOut_afterHead (hsocket : env.socket = working) {s : Txn}
    (hsets : Sets cookie (built env s)) :
    HandedOut cookie (afterHead env s).trace := by
  refine ⟨built env s, hsets, ?_⟩
  unfold afterHead
  rw [(headRun_working env hsocket s).2]
  exact List.mem_append_right _ (List.mem_singleton_self _)

/-- On a working socket a chunk that parses is relayed. -/
theorem relayChunk_working (hsocket : env.socket = working)
    {data body : Bytes} {headers : Headers}
    (hparse : relayParse data = .ok (body, headers)) (s : Txn) :
    relayChunk env true data s
      = (.ok (), afterHead env (relayed data body headers s)) := by
  rw [relayChunk_of_ok env hparse, (headRun_working env hsocket _).1]

/-- Another header leaves the cookie. -/
theorem Sets.addHeader {r : Response} {key val : Bytes}
    (h : Sets cookie r) (hkey : key ≠ setCookie) :
    Sets cookie (r.addHeader key val) :=
  (AList.lookup_insert_ne (Ne.symm hkey)).trans h

/-- The cookie a chunk is relayed with: its own, or the response's. -/
theorem sets_relayed {data body : Bytes} {headers : Headers} {s : Txn}
    (h : headers.lookup setCookie = some cookie
      ∨ headers.lookup setCookie = none ∧ Sets cookie s.response) :
    Sets cookie (built env (relayed data body headers s)) := by
  have hmerged : Sets cookie (relayed data body headers s).response := by
    unfold relayed relayResponse
    refine Sets.addHeader ?_ (by decide)
    unfold Sets
    rw [Response.lookup_addHeaders]
    rcases h with hown | ⟨hnone, hsets⟩
    · rw [hown]
      rfl
    · rw [hnone]
      exact hsets
  exact hmerged.addHeader (by decide)

/-- Whatever is read behind it, the loop keeps what was handed out. -/
theorem handedOut_scriptLoop {s : Txn} (h : HandedOut cookie s.trace)
    (script : Bytes) (reads : List ScriptRead) :
    HandedOut cookie (scriptLoop env script (some (relayChunk env true))
      reads s).2.trace :=
  h.mono (only_scriptLoop env (P := fun _ => True)
    (fun _ _ => True.intro) script true reads s).1

/-- A chunk that is relayed with the cookie hands it out. -/
theorem handedOut_chunk (hsocket : env.socket = working) {data : Bytes}
    {headers : Headers} (hrelayable : Relayable data headers) {s : Txn}
    (h : headers.lookup setCookie = some cookie
      ∨ headers.lookup setCookie = none ∧ Sets cookie s.response)
    (script : Bytes) (rest : List ScriptRead) :
    HandedOut cookie (scriptLoop env script (some (relayChunk env true))
      (.chunk data :: rest) s).2.trace := by
  obtain ⟨body, hparse⟩ := hrelayable
  rw [scriptLoop_chunk,
    Proc.bind_of_ok (relayChunk_working env hsocket hparse s)]
  exact handedOut_scriptLoop env
    (handedOut_afterHead env hsocket (sets_relayed env h)) script rest

/-- A script that prints the cookie hands it out. -/
theorem handedOut_of_prints (hsocket : env.socket = working)
    {reads : List ScriptRead} (h : Prints cookie reads) (script : Bytes)
    (s : Txn) :
    HandedOut cookie (scriptLoop env script (some (relayChunk env true))
      reads s).2.trace := by
  obtain ⟨earlier, data, rest, headers, rfl, hearlier, hrelayable, hset⟩ := h
  induction earlier generalizing s with
  | nil =>
      exact handedOut_chunk env hsocket hrelayable (Or.inl hset) script rest
  | cons d earlier ih =>
      obtain ⟨hd, body, hparse⟩ := hearlier d (List.mem_cons_self ..)
      rw [List.map_cons, List.cons_append, scriptLoop_chunk,
        Proc.bind_of_ok (relayChunk_working env hsocket hparse s)]
      exact ih _ fun d' hd' => hearlier d' (List.mem_cons_of_mem _ hd')

/-- A script that hands the cookie out does so. -/
theorem relayScript_handedOut (hsocket : env.socket = working)
    (h : HandsOut cookie env.script) (script : Bytes) {s : Txn}
    (hsets : Sets cookie s.response) :
    HandedOut cookie (relayScript env script s).2.trace := by
  obtain ⟨hfails, hout⟩ := h
  rw [relayScript_of_none env hfails]
  rcases hout with ⟨data, rest, headers, hreads, hrelayable, hnone⟩ | hprints
  · have hspawned : Sets cookie (spawnedTxn script s).response := hsets
    rw [hreads]
    exact handedOut_chunk env hsocket hrelayable
      (Or.inr ⟨hnone, hspawned⟩) script rest
  · exact handedOut_of_prints env hsocket hprints script _

/-- OPTIONS sends the response as it stands. -/
theorem options_handedOut (hsocket : env.socket = working) {s : Txn}
    {entry : EndpointMethod} (hrouted : Routed s.request s.router entry)
    (hsets : Sets cookie s.response) :
    HandedOut cookie (OptionsHandler.handle env s).2.trace := by
  obtain ⟨ep, hrun⟩ := optionsHandler_routed env hrouted
  rw [hrun]
  have hkept : Sets cookie (optionsResponse env ep s) :=
    (((hsets.addHeader (by decide)).addHeader (by decide)).addHeader
      (by decide)).addHeader (by decide)
  refine ⟨optionsResponse env ep s, hkept,
    List.mem_append_right _ (List.mem_singleton.mpr ?_)⟩
  rw [hsocket]
  unfold working firstTaken
  simp only
  rw [WriteAnswer.taken_ok rfl, List.take_length]

/-- A script that could be spawned was. -/
theorem relayScript_spawned (h : env.script.fails = none) (script : Bytes)
    (s : Txn) :
    .spawned (cStr script) s.request.args
      ∈ (relayScript env script s).2.trace := by
  rw [relayScript_of_none env h]
  obtain ⟨-, -, events, htrace, -⟩ := (only_scriptLoop env
    (P := fun _ => True) (fun _ _ => True.intro) script true
    env.script.reads (spawnedTxn script s)).1
  rw [htrace]
  exact List.mem_append_left _
    (List.mem_append_right _ (List.mem_singleton_self _))

end Handlers

-- ============================================================= sessions

section Session

variable (env : Env)

/-- The request is for an entry of the table, that of a method. -/
def Asks (r : Router) (m : Method) (entry : EndpointMethod) : Prop :=
  ∃ endpoint ep, extractEndpoint env.buffer = .ok endpoint
    ∧ extractMethod env.buffer = .ok m
    ∧ r.endpoints.lookup endpoint = some ep
    ∧ ep.methods.lookup m = some entry

/-- The pipeline below `ErrorHandler` lets the request through. -/
def Admitted (srv : Server) : Prop :=
  (runPipeline env (srv.pipeline.drop 2) { router := srv.router }).1
    = .ok ()

/-- The route keeps its token back but on a success: it is no OPTIONS
route, and if its script is run and hands the token out, the script
succeeds. -/
def KeepsToken (m : Method) (entry : EndpointMethod) : Prop :=
  m ≠ .options
    ∧ (m ≠ .head → entry.hasScript = true →
      HandsOut (tokenOf env entry) env.script → ScriptSucceeds env.script)

/-- The gate does not write to the socket. -/
theorem runPipeline_socket (socket : Nat → Nat → List WriteAnswer)
    {components : List Component} (h : ∀ c ∈ components, c.IsGate) :
    runPipeline { env with socket := socket } components
      = runPipeline env components := by
  induction components with
  | nil => rfl
  | cons c rest ih =>
      have hrest := ih fun c' hc' => h c' (List.mem_cons_of_mem _ hc')
      have hc := h c (List.mem_cons_self ..)
      show c.process { env with socket := socket }
        (runPipeline { env with socket := socket } rest) = _
      rw [hrest]
      cases c with
      | logger => rfl
      | errorHandler => exact absurd hc (fun hfalse => hfalse)
      | parser => rfl
      | limiter l => cases l <;> rfl
      | rateLimiter => rfl
      | authenticator => rfl

/-- Lookups leave what is asked for. -/
theorem Asks.grown {r r' : Router} {m : Method} {entry : EndpointMethod}
    (h : Asks env r m entry) (hgrown : Grown r r') :
    Asks env r' m entry := by
  obtain ⟨endpoint, ep, hurl, hmethod, hep, hentry⟩ := h
  exact ⟨endpoint, ep, hurl, hmethod, hgrown.kept endpoint ep hep, hentry⟩

/-- The gate finds the entry that is asked for. -/
theorem Passed.entry_eq {before after : List Limiter} {r : Router}
    {m : Method} {s₁ : Txn} {entry entry' : EndpointMethod}
    (h : Passed env before after { router := r } s₁ entry')
    (hasks : Asks env r m entry) : entry' = entry := by
  obtain ⟨endpoint, ep, hurl, hmethod, hep, hentry⟩ :=
    hasks.grown env (grown_getEndpoint h.lookup).2.1
  obtain ⟨ep', hep', hentry'⟩ := h.routed.endpoint_entry
  obtain rfl := Except.ok.inj (h.accepts.endpointUrl.symm.trans hurl)
  obtain rfl := Except.ok.inj (h.accepts.method.symm.trans hmethod)
  obtain rfl := Option.some.inj (hep.symm.trans hep')
  exact Option.some.inj (hentry'.symm.trans hentry)

/-- An answer to an exception comes without the cookie. -/
theorem Answered.bare {cookie : Bytes} {s t : Txn}
    (h : Answered env s t) : AddsNoCookie cookie s t := by
  rcases h with rfl | ⟨e, he, rfl⟩
  · exact .refl cookie _
  · exact answerError_bare env he s

/-- What follows events that are no heads has all the heads. -/
theorem AddsNoCookie.noHeadSets {cookie : Bytes} {s t : Txn}
    (h : AddsNoCookie cookie s t)
    (hs : ∀ r accepted, .head r accepted ∉ s.trace) :
    NoHeadSets cookie t.trace := by
  obtain ⟨events, htrace, hnone⟩ := h
  rw [htrace]
  exact noHeadSets_append
    (fun r accepted hmem => absurd hmem (hs r accepted)) hnone

/-- Behind a gate that minted, only that token was minted. -/
theorem minted_token {before after : List Limiter} {r : Router}
    {s₁ t : Txn} {entry : EndpointMethod} {cookie : Bytes}
    (hpassed : Passed env before after { router := r } s₁ entry)
    (hauth : entry.isAuthenticator = true)
    (hanswered : Answered env (finish env s₁).2 t) :
    .minted cookie ∈ t.trace ↔ cookie = tokenOf env entry := by
  obtain ⟨-, -, own, hown, hallOwn⟩ := finish_events env hpassed.routed
  obtain ⟨-, -, pages, hpages, hallPages⟩ := hanswered.emits
  have hgate : s₁.trace = [.minted (tokenOf env entry)] := by
    rcases hpassed.minted with ⟨hno, -⟩ | ⟨-, _, -, htrace⟩
    · rw [hno] at hauth
      cases hauth
    · exact htrace
  rw [hpages, hown, hgate]
  constructor
  · intro hmem
    simp only [List.mem_append, List.mem_map] at hmem
    rcases hmem with ((hmem | ⟨_, -, heq⟩) | hmem) | hmem
    · cases List.mem_singleton.mp hmem
      rfl
    · cases heq
    · cases hallOwn _ hmem
    · cases hallPages _ hmem
  · rintro rfl
    simp

/-- A handler is that of its method. -/
theorem assignHandler_head {m : Method} {kind : HandlerKind}
    (h : assignHandler m = .ok kind) : kind = .head ↔ m = .head := by
  cases m <;> cases h <;> decide

theorem assignHandler_options {m : Method} {kind : HandlerKind}
    (h : assignHandler m = .ok kind) : kind = .options ↔ m = .options := by
  cases m <;> cases h <;> decide

/-- Of a session that passed the gate, what the handler begins on: no head
has been sent, -/
theorem Passed.no_heads {before after : List Limiter} {router : Router}
    {s₁ : Txn} {entry : EndpointMethod}
    (h : Passed env before after { router := router } s₁ entry)
    (kind : HandlerKind) :
    ∀ r accepted, .head r accepted ∉ (begun kind s₁).trace := by
  intro r accepted hmem
  rcases List.mem_append.mp hmem with hin | hin
  · obtain ⟨_, hevent⟩ := Passed.trace_minted env h _ hin
    cases hevent
  · cases List.mem_singleton.mp hin

/-- and at an authenticator the response sets the token. -/
theorem Passed.sets_token {before after : List Limiter} {router : Router}
    {s₁ : Txn} {entry : EndpointMethod}
    (h : Passed env before after { router := router } s₁ entry)
    (hauth : entry.isAuthenticator = true) (kind : HandlerKind) :
    Sets (tokenOf env entry) (begun kind s₁).response := by
  rcases h.minted with ⟨hno, -⟩ | ⟨-, r, hresponse, -⟩
  · rw [hno] at hauth
    cases hauth
  · show Sets _ s₁.response
    rw [hresponse]
    exact AList.lookup_insert _

/-- OPTIONS spawns nothing. -/
theorem options_spawns_nothing {before after : List Limiter}
    {srv : Server} {s₁ : Txn} {entry : EndpointMethod}
    (h : Passed env before after { router := srv.router } s₁ entry)
    (hanswered : Answered env
      (HandlerKind.options.run env (begun .options s₁)).2 (srv.serve env))
    (path args : Bytes) : .spawned path args ∉ (srv.serve env).trace := by
  intro hspawned
  have hbegun : Routed (begun .options s₁).request (begun .options s₁).router
      entry := h.routed
  obtain ⟨ep, hrun⟩ := optionsHandler_routed env hbegun
  obtain ⟨-, -, pages, htrace, hpages⟩ := hanswered.emits
  rw [htrace, show (HandlerKind.options.run env
    (begun .options s₁)).2.trace = _ from congrArg (·.2.trace) hrun]
    at hspawned
  simp only [List.mem_append, List.mem_singleton] at hspawned
  rcases hspawned with (hmem | hmem) | hmem
  · rcases List.mem_append.mp hmem with hin | hin
    · obtain ⟨_, hevent⟩ := Passed.trace_minted env h _ hin
      cases hevent
    · cases List.mem_singleton.mp hin
  · cases hmem
  · cases hpages _ hmem

/-- Where the condition holds, a token gets out on a success only. -/
theorem onlyOnSuccess_of_keepsToken {before after : List Limiter}
    {srv : Server}
    (hpipeline : srv.pipeline
      = .logger :: .errorHandler :: gateComponents before after)
    {m : Method} {entry : EndpointMethod}
    (hasks : Asks env srv.router m entry) (hwell : WellRouted m entry)
    (hauth : entry.isAuthenticator = true)
    (hkeeps : Admitted env srv → KeepsToken env m entry) :
    OnlyOnSuccess env.script (srv.serve env).trace := by
  intro cookie hminted r accepted hhead hcarries
  rcases serve_answered env hpipeline with
    ⟨stop, s₁, hrun, hanswered⟩ | ⟨s₁, entry', hrun, hpassed, hanswered⟩
  · -- Only a page is sent.
    obtain ⟨-, events, htrace, hall⟩ := (gateQuiet_runPipeline env
      (isGate_gateComponents before after) { router := srv.router }).1
    rw [hrun] at htrace
    refine absurd hcarries.1 ((hanswered.bare env).noHeadSets
      (fun r' accepted' hmem => ?_) r accepted hhead)
    rw [htrace] at hmem
    obtain ⟨_, hevent⟩ := hall _ hmem
    cases hevent
  · obtain rfl := hpassed.entry_eq env hasks
    obtain ⟨hnotOptions, hsucceeds⟩ := hkeeps (by
      unfold Admitted
      rw [hpipeline]
      show (runPipeline env (gateComponents before after) _).1 = _
      rw [hrun])
    obtain ⟨kind, hkind, hhandler⟩ := hwell.handler
    have hnotKind : kind ≠ .options :=
      fun h => hnotOptions ((assignHandler_options hkind).mp h)
    obtain rfl := (minted_token env hpassed hauth hanswered).mp hminted
    rw [finish_of_handler env hpassed.routed hhandler] at hanswered
    have hgateHeads := hpassed.no_heads env kind
    have hbegun : Routed (begun kind s₁).request (begun kind s₁).router
        entry' := hpassed.routed
    by_cases hout : kind ≠ .head ∧ entry'.hasScript = true
        ∧ HandsOut (tokenOf env entry') env.script
    · -- GET and POST have spawned the script they relay.
      obtain ⟨hnotHead, hscript, hout⟩ := hout
      obtain ⟨-, -, pages, htrace, -⟩ := hanswered.emits
      refine ⟨⟨cStr entry'.resource, (begun kind s₁).request.args, ?_⟩,
        hsucceeds ?_ hscript hout⟩
      · rw [htrace, run_script env hbegun hscript hnotHead hnotKind]
        exact List.mem_append_left _
          (relayScript_spawned env hout.1 entry'.resource (begun kind s₁))
      · exact fun hm => hnotHead ((assignHandler_head hkind).mpr hm)
    · have hbare := run_bare env hbegun hnotKind (hwell.resource hauth)
        fun hne hscript hhands => hout ⟨hne, hscript, hhands⟩
      exact absurd hcarries.1 ((hbare.trans (hanswered.bare env)).noHeadSets
        hgateHeads r accepted hhead)

/-- On a working socket a token that gets out on a success only is kept
back as the condition says. -/
theorem keepsToken_of_onlyOnSuccess {before after : List Limiter}
    {srv : Server}
    (hpipeline : srv.pipeline
      = .logger :: .errorHandler :: gateComponents before after)
    {m : Method} {entry : EndpointMethod}
    (hasks : Asks env srv.router m entry) (hwell : WellRouted m entry)
    (hauth : entry.isAuthenticator = true) (hadmitted : Admitted env srv)
    (hsocket : env.socket = working)
    (honly : OnlyOnSuccess env.script (srv.serve env).trace) :
    KeepsToken env m entry := by
  have hgate : (runPipeline env (gateComponents before after)
      { router := srv.router }).1 = .ok () := by
    unfold Admitted at hadmitted
    rw [hpipeline] at hadmitted
    exact hadmitted
  -- The gate lets the session through, and a token that is handed out is in
  -- a head.
  rcases serve_answered env hpipeline with
    ⟨stop, s₁, hrun, -⟩ | ⟨s₁, entry', hrun, hpassed, hanswered⟩
  · rw [hrun] at hgate
    cases hgate
  · obtain rfl := hpassed.entry_eq env hasks
    obtain ⟨kind, hkind, hhandler⟩ := hwell.handler
    have hminted :=
      (minted_token env hpassed hauth hanswered).mpr rfl
    rw [finish_routed env hpassed.routed, hhandler] at hanswered
    have hbegun : Routed (begun kind s₁).request (begun kind s₁).router
        entry' := hpassed.routed
    have hsets := hpassed.sets_token env hauth kind
    have hcarried : HandedOut (tokenOf env entry')
        (kind.run env (begun kind s₁)).2.trace →
          (∃ path args, .spawned path args ∈ (srv.serve env).trace)
            ∧ ScriptSucceeds env.script := by
      intro hout
      obtain ⟨r, hr, hmem⟩ := hout.mono hanswered.emits
      exact honly _ hminted r _ hmem
        ⟨hr, Response.headerLine_infix_serialise hr⟩
    -- OPTIONS hands it out and spawns nothing.
    have hnotOptions : m ≠ .options := by
      intro hm
      obtain rfl := (assignHandler_options hkind).mpr hm
      obtain ⟨⟨path, args, hspawned⟩, -⟩ :=
        hcarried (options_handedOut env hsocket hbegun hsets)
      exact options_spawns_nothing env hpassed hanswered path args hspawned
    refine ⟨hnotOptions, fun hm hscript hout => ?_⟩
    have hnotKind : kind ≠ .options :=
      fun h => hnotOptions ((assignHandler_options hkind).mp h)
    have hnotHead : kind ≠ .head :=
      fun h => hm ((assignHandler_head hkind).mp h)
    refine (hcarried ?_).2
    rw [run_script env hbegun hscript hnotHead hnotKind]
    exact relayScript_handedOut env hsocket hout entry'.resource hsets

/-- For every configuration that loads, every sequence of sessions and
every request to an authenticator: whatever the socket does, a minted
token is carried to the client only if the script succeeds, exactly if
the request is not let through or the route keeps its token. -/
theorem token_only_on_success_iff {contentPath : Bytes}
    {serverConfig : XMLElement} {errorPages : AList fun _ : Code => Bytes}
    {srv : Server}
    (hload : initializeServer contentPath serverConfig errorPages = .ok srv)
    (envs : List Env) {m : Method} {entry : EndpointMethod}
    (hasks : Asks env srv.router m entry)
    (hauth : entry.isAuthenticator = true) :
    (∀ socket, OnlyOnSuccess env.script
        ((srv.after envs).serve { env with socket := socket }).trace)
      ↔ (Admitted env (srv.after envs) → KeepsToken env m entry) := by
  obtain ⟨before, after, hpipeline, -⟩ := initializeServer_gate hload
  obtain ⟨hsame, hgrown⟩ := grown_after hpipeline envs
  have hlater := hsame.trans hpipeline
  have hwell : WellRouted m entry := by
    obtain ⟨endpoint, ep, -, -, hep, hentry⟩ := hasks
    exact wellRouted_initializeServer hload endpoint ep hep m entry hentry
  -- Whether the session is admitted does not depend on the socket: the gate
  -- writes nothing.
  have hadmitted : ∀ socket,
      Admitted { env with socket := socket } (srv.after envs)
        ↔ Admitted env (srv.after envs) := by
    intro socket
    unfold Admitted
    rw [hlater]
    show (runPipeline { env with socket := socket }
      (gateComponents before after) _).1 = _ ↔ _
    rw [runPipeline_socket env socket (isGate_gateComponents before after)]
    rfl
  have hasksLater := hasks.grown env hgrown
  constructor
  · intro honly hadm
    exact keepsToken_of_onlyOnSuccess { env with socket := working } hlater
      hasksLater hwell hauth ((hadmitted working).mpr hadm) rfl
      (honly working)
  · intro hkeeps socket
    exact onlyOnSuccess_of_keepsToken { env with socket := socket } hlater
      hasksLater hwell hauth fun hadm =>
        hkeeps ((hadmitted socket).mp hadm)

end Session

/-- A configuration with a login. -/
def loginConfig : XMLElement :=
  .mk (bytes "ServerConfig") [] [.mk (bytes "Routes") []
    [.mk (bytes "Route")
      [(bytes "method", bytes "POST"), (bytes "endpoint", bytes "/login"),
        (bytes "script", bytes "login.py"),
        (bytes "authenticator", bytes "true")] []]]

/-- Its one entry. -/
def loginEntry : EndpointMethod where
  m := .post
  accessRole := viewerRole
  authRole := viewerRole
  isAuthenticator := true
  resource := bytes "/login.py"
  hasScript := true
  handler := some .post

/-- The server it loads to. -/
def loginServer : Server where
  pipeline := [.logger, .errorHandler, .limiter (.fixedWindow {}), .parser,
    .rateLimiter, .authenticator]
  router :=
    { Router.initial with
      endpoints := Router.initial.endpoints.insert (bytes "/login")
        (({} : Endpoint).addMethod loginEntry) }

/-- A login whose script prints an output. -/
def loginEnv (output : String) : Env where
  readData := bytes "POST /login HTTP/1.1\r\nHost: localhost\r\n\r\n"
  script := { reads := [.chunk (bytes output), .eof] }
  globalLimit := { exchanges := [⟨true, 0⟩, ⟨false, 1⟩] }
  socket := working

theorem initializeServer_login :
    initializeServer [] loginConfig ∅ = .ok loginServer := rfl

theorem asks_login (output : String) :
    Asks (loginEnv output) loginServer.router .post loginEntry :=
  ⟨bytes "/login", ({} : Endpoint).addMethod loginEntry, rfl, rfl, rfl,
    rfl⟩

/-- A login that succeeds may hand its token out. -/
theorem token_only_on_success_login :
    loginEntry.isAuthenticator = true
      ∧ ∀ socket, OnlyOnSuccess
        (loginEnv "HTTP/1.1 200 OK\r\n\r\n").script
        ((loginServer.after []).serve
          { loginEnv "HTTP/1.1 200 OK\r\n\r\n" with
            socket := socket }).trace := by
  refine ⟨rfl, ?_⟩
  refine (token_only_on_success_iff (loginEnv "HTTP/1.1 200 OK\r\n\r\n")
    initializeServer_login [] (asks_login _) rfl).mpr ?_
  exact fun _ => ⟨by decide, fun _ _ _ => by decide⟩

/-- One that fails does too: the script answers 401, and the token goes
out with that answer. -/
theorem token_on_failed_login :
    ¬ ∀ (contentPath : Bytes) (serverConfig : XMLElement)
      (errorPages : AList fun _ : Code => Bytes) (srv : Server),
      initializeServer contentPath serverConfig errorPages = .ok srv →
      ∀ (env : Env) (m : Method) (entry : EndpointMethod),
        Asks env srv.router m entry → entry.isAuthenticator = true →
        OnlyOnSuccess env.script (srv.serve env).trace := by
  intro hclaim
  have honly := hclaim [] loginConfig ∅ loginServer initializeServer_login
    (loginEnv "HTTP/1.1 401 Unauthorized\r\n\r\n") .post loginEntry
    (asks_login _) rfl
  have hpipeline : loginServer.pipeline = .logger :: .errorHandler
      :: gateComponents [.fixedWindow {}] [] := rfl
  have hkeeps := keepsToken_of_onlyOnSuccess
    (loginEnv "HTTP/1.1 401 Unauthorized\r\n\r\n") hpipeline (asks_login _)
    ⟨⟨.post, rfl, rfl⟩, fun _ hscript => by cases hscript⟩ rfl rfl rfl honly
  -- The answer is relayed, and has no cookie of its own.
  have hout : HandsOut
      (tokenOf (loginEnv "HTTP/1.1 401 Unauthorized\r\n\r\n") loginEntry)
      (loginEnv "HTTP/1.1 401 Unauthorized\r\n\r\n").script :=
    ⟨rfl, Or.inl ⟨_, _, ∅, rfl, ⟨[], rfl⟩, rfl⟩⟩
  exact absurd (hkeeps.2 (by decide) rfl hout) (by decide)

end CgiWebServer
