/-
What becomes of the header lines of a script.

The callback reads the lines into a map, puts the map over what the
middleware has left in the response, adds `Connection` and, in `build`,
`Date`. A response has one line for a name, so of several lines of one
name the last one is sent, and a `Set-Cookie` of the script takes the
place of the token the authenticator has put there.

# The law

The lines that must be sent are those of the script but for `Date` and
`Connection`, and the token's: as a list with repetitions they are a part
of the lines sent exactly if no two of them have one name, the script's
response being one that is relayed at all (`headers_survive_iff`).
-/
import CgiWebServer.Proofs.LoginToken
import CgiWebServer.Proofs.ScriptStatus

namespace CgiWebServer

open Process Scan

-- ============================================================ header lines

/-- The header lines of a response, as names with values. -/
def Response.fields (r : Response) : List (Bytes × Bytes) :=
  r.headers.entries.map fun e => (e.1, e.2)

theorem Response.mem_fields {r : Response} {h : Bytes × Bytes} :
    h ∈ r.fields ↔ r.headers.lookup h.1 = some h.2 := by
  rw [AList.lookup, ← Option.mem_def, List.mem_dlookup_iff r.headers.nodupKeys,
    Response.fields, List.mem_map]
  constructor
  · intro hmem
    obtain ⟨e, he, rfl⟩ := hmem
    exact he
  · exact fun hmem => ⟨⟨h.1, h.2⟩, hmem, rfl⟩

/-- No two of them have one name. -/
theorem Response.nodup_fields (r : Response) :
    (r.fields.map Prod.fst).Nodup := by
  rw [Response.fields, List.map_map]
  exact r.headers.nodupKeys

/-- Lines are a part of a response's lines, counted with repetitions,
exactly if their names differ and each name has its value. -/
theorem Response.subperm_fields_iff {hs : List (Bytes × Bytes)}
    {r : Response} :
    hs.Subperm r.fields
      ↔ (hs.map Prod.fst).Nodup
        ∧ ∀ h ∈ hs, r.headers.lookup h.1 = some h.2 := by
  constructor
  · intro h
    refine ⟨?_, fun g hg => Response.mem_fields.mp (h.subset hg)⟩
    obtain ⟨part, hperm, hsub⟩ := h
    exact (hperm.map Prod.fst).nodup_iff.mp
      ((hsub.map Prod.fst).nodup r.nodup_fields)
  · intro h
    exact List.subperm_of_subset h.1.of_map
      fun g hg => Response.mem_fields.mpr (h.2 g hg)

-- ============================================================= the lookup

/-- A line whose name no other line has is the one its name reads. -/
theorem lookup_reverse_of_only {hs : List (Bytes × Bytes)}
    {h : Bytes × Bytes} (hmem : h ∈ hs)
    (honly : ∀ g ∈ hs, g.1 = h.1 → g = h) :
    hs.reverse.lookup h.1 = some h.2 := by
  cases hlookup : hs.reverse.lookup h.1 with
  | none =>
      have hne := List.lookup_eq_none_iff.mp hlookup h
        (List.mem_reverse.mpr hmem)
      simp at hne
  | some value =>
      obtain ⟨front, behind, hsplit, -⟩ :=
        List.lookup_eq_some_iff.mp hlookup
      have hin : (h.1, value) ∈ hs := by
        rw [← List.mem_reverse, hsplit]
        simp
      rw [← honly _ hin rfl]

/-- A name no line has reads nothing. -/
theorem lookup_reverse_of_not_mem {hs : List (Bytes × Bytes)} {name : Bytes}
    (hnot : name ∉ hs.map Prod.fst) : hs.reverse.lookup name = none := by
  rw [List.lookup_eq_none_iff]
  intro g hg
  rw [bne_iff_ne]
  intro heq
  exact hnot (heq ▸ List.mem_map_of_mem (List.mem_reverse.mp hg))

section Relay

variable (env : Env)

/-- The headers a relayed chunk is sent with, but for the two names the
server sets. -/
theorem lookup_relayed (data body : Bytes) (headers : Headers) (s : Txn)
    {name : Bytes} (hdate : name ≠ bytes "Date")
    (hconnection : name ≠ bytes "Connection") :
    (built env (relayed data body headers s)).headers.lookup name
      = (headers.lookup name).or (s.response.headers.lookup name) := by
  unfold built relayed relayResponse Response.build
  rw [Response.addHeader_headers, AList.lookup_insert_ne hdate,
    Response.addHeader_headers, AList.lookup_insert_ne hconnection,
    Response.lookup_addHeaders]

/-- A chunk that parses and is the last one leaves its head behind,
whatever its write reports. -/
theorem relay_last {data body : Bytes} {headers : Headers}
    (hparse : relayParse data = .ok (body, headers)) (script : Bytes)
    (s : Txn) :
    ((relayChunk env true data >>= fun _ => relayLoop env script [.eof])
        s).2
      = afterHead env (relayed data body headers s) := by
  have hrelay := relayChunk_of_ok env hparse s
  cases hend : writeEndOf
      (headRun env (relayed data body headers s)).result with
  | ok u =>
      rw [hend] at hrelay
      rw [Proc.bind_of_ok hrelay]
      rfl
  | error stop =>
      rw [hend] at hrelay
      rw [Proc.bind_of_error hrelay]

end Relay

-- ================================================================ the law

/-- The lines of a script that the server may not replace. -/
def ScriptResponse.kept (r : ScriptResponse) : List (Bytes × Bytes) :=
  r.headers.filter fun h =>
    h.1 ≠ bytes "Date" ∧ h.1 ≠ bytes "Connection"

theorem ScriptResponse.mem_kept {r : ScriptResponse} {h : Bytes × Bytes} :
    h ∈ r.kept ↔ h ∈ r.headers ∧ h.1 ≠ bytes "Date"
      ∧ h.1 ≠ bytes "Connection" := by
  rw [ScriptResponse.kept, List.mem_filter, decide_eq_true_iff]

section Law

variable (env : Env)

/-- The line of the token that is minted on a route. -/
def tokenLine (entry : EndpointMethod) : List (Bytes × Bytes) :=
  if entry.isAuthenticator then [(setCookie, tokenOf env entry)] else []

theorem tokenLine_names (entry : EndpointMethod) :
    (tokenLine env entry).map Prod.fst
      = if entry.isAuthenticator then [setCookie] else [] := by
  unfold tokenLine
  split <;> rfl

/-- A script that prints one response and ends. -/
def prints (r : ScriptResponse) : ScriptRun :=
  { reads := [.chunk r.text, .eof] }

/-- Behind the gate a head is sent that has the lines of the script and
that of the token, each as often as it is due. -/
def HeadersSurvive (entry : EndpointMethod) (r : ScriptResponse) (s : Txn) :
    Prop :=
  ∃ sent accepted, .head sent accepted ∈ (finish env s).2.trace
    ∧ (r.kept ++ tokenLine env entry).Subperm sent.fields

/-- A route to a script, and a handler that relays it. -/
structure ScriptRoute (entry : EndpointMethod) : Prop where
  hasScript : entry.hasScript = true
  handler : entry.handler = some .get ∨ entry.handler = some .post

variable {env} {before after : List Limiter} {router : Router} {s : Txn}
  {entry : EndpointMethod} {r : ScriptResponse}

/-- The lines are there and none is replaced, read name by name off the
response's map. -/
theorem subperm_due_iff {sent : Response} :
    (r.kept ++ tokenLine env entry).Subperm sent.fields
      ↔ ((r.kept.map Prod.fst).Nodup
          ∧ (entry.isAuthenticator = true →
            setCookie ∉ r.headers.map Prod.fst))
        ∧ ∀ h ∈ r.kept ++ tokenLine env entry,
            sent.headers.lookup h.1 = some h.2 := by
  rw [Response.subperm_fields_iff, List.map_append, tokenLine_names]
  refine and_congr_left fun _ => ?_
  cases entry.isAuthenticator with
  | false => simp
  | true =>
      have hname : setCookie ≠ bytes "Date"
          ∧ setCookie ≠ bytes "Connection" := by decide
      have hmem : setCookie ∈ r.kept.map Prod.fst
          ↔ setCookie ∈ r.headers.map Prod.fst := by
        simp only [List.mem_map, ScriptResponse.mem_kept]
        constructor
        · intro h
          obtain ⟨g, hg, hfst⟩ := h
          exact ⟨g, hg.1, hfst⟩
        · intro h
          obtain ⟨g, hg, hfst⟩ := h
          exact ⟨g, ⟨hg, by rw [hfst]; exact hname⟩, hfst⟩
      simp only [if_true, List.nodup_append, List.nodup_singleton, true_and,
        List.mem_singleton, forall_eq, forall_true_left, ← hmem]
      refine and_congr_right fun _ => ?_
      exact ⟨fun h hin => h _ hin rfl, fun h a ha heq => h (heq ▸ ha)⟩

/-- What such a route does with one response: it relays it, in a
transaction with the response and the heads there were, and then the
script has ended. -/
theorem finish_prints (hpassed : Passed env before after
      { router := router } s entry)
    (hroute : ScriptRoute entry) (hscript : env.script = prints r) :
    ∃ s₀ : Txn, s₀.response = s.response
      ∧ (∀ sent accepted, .head sent accepted ∉ s₀.trace)
      ∧ finish env s = (relayChunk env true r.text >>= fun _ =>
          relayLoop env entry.resource [.eof]) s₀ := by
  have hnone : env.script.fails = none := by
    rw [hscript]
    rfl
  have hreads : env.script.reads = [.chunk r.text, .eof] := by
    rw [hscript]
    rfl
  have hkind : ∃ kind, entry.handler = some kind ∧ kind ≠ .head
      ∧ kind ≠ .options := by
    rcases hroute.handler with h | h
    · exact ⟨.get, h, by decide, by decide⟩
    · exact ⟨.post, h, by decide, by decide⟩
  obtain ⟨kind, hhandler, hhead, hoptions⟩ := hkind
  have hbegun : Routed (begun kind s).request (begun kind s).router entry :=
    hpassed.routed
  refine ⟨spawnedTxn entry.resource (begun kind s), rfl, ?_, ?_⟩
  · intro sent accepted hmem
    -- In front of it the gate has minted, the handler begun and spawned.
    have hcases : Event.head sent accepted ∈ s.trace := by
      simpa [spawnedTxn, emit, begun] using hmem
    obtain ⟨_, hevent⟩ := Passed.trace_minted env hpassed _ hcases
    cases hevent
  · rw [finish_of_handler env hpassed.routed hhandler, run_script env hbegun
      hroute.hasScript hhead hoptions, relayScript_of_none env hnone, hreads]
    rfl

/-- A response of status 400 is not relayed. -/
theorem no_head_of_bad_request (hpassed : Passed env before after
      { router := router } s entry)
    (hroute : ScriptRoute entry) (hscript : env.script = prints r)
    (hcode : digitsVal r.code = 400) {sent : Response} {accepted : Bytes} :
    .head sent accepted ∉ (finish env s).2.trace := by
  obtain ⟨s₀, -, hnone, hfinish⟩ := finish_prints hpassed hroute hscript
  have hparse : relayParse r.text = .error (.ofStatus .badGateway
      "Failed to parse response from script") := by
    unfold relayParse
    rw [r.extractStatusCode_text, ScriptResponse.status, hcode]
    exact if_pos (Or.inl rfl)
  obtain ⟨_, hrun⟩ := relayChunk_of_error env hparse s₀
  rw [hfinish, Proc.bind_of_error hrun]
  exact hnone sent accepted

/-- Every other response is relayed with its headers over those that were
there. -/
theorem head_of_other_code (hpassed : Passed env before after
      { router := router } s entry)
    (hroute : ScriptRoute entry) (hscript : env.script = prints r)
    (hcode : digitsVal r.code ≠ 400) :
    ∃ sent accepted, .head sent accepted ∈ (finish env s).2.trace
      ∧ ∀ name, name ≠ bytes "Date" → name ≠ bytes "Connection" →
        sent.headers.lookup name
          = (r.headers.reverse.lookup name).or
              (s.response.headers.lookup name) := by
  obtain ⟨s₀, hresponse, -, hfinish⟩ := finish_prints hpassed hroute hscript
  obtain ⟨body, hparse⟩ := r.relayParse_text hcode
  refine ⟨built env (relayed r.text body (headerMap r.headers ∅) s₀),
    (headRun env (relayed r.text body (headerMap r.headers ∅) s₀)).accepted,
    ?_, ?_⟩
  · rw [hfinish, relay_last env hparse]
    exact List.mem_append_right _ (List.mem_singleton.mpr rfl)
  · intro name hdate hconnection
    rw [lookup_relayed env _ _ _ _ hdate hconnection, lookup_headerMap,
      hresponse]
    cases r.headers.reverse.lookup name <;> rfl

/-- Where the names differ, everything that is due is sent. -/
theorem headersSurvive_of_names (hpassed : Passed env before after
      { router := router } s entry)
    (hroute : ScriptRoute entry) (hscript : env.script = prints r)
    (hcode : digitsVal r.code ≠ 400)
    (hnames : (r.kept.map Prod.fst).Nodup)
    (htoken : entry.isAuthenticator = true →
      setCookie ∉ r.headers.map Prod.fst) :
    HeadersSurvive env entry r s := by
  obtain ⟨sent, accepted, hhead, hlookup⟩ :=
    head_of_other_code hpassed hroute hscript hcode
  refine ⟨sent, accepted, hhead, subperm_due_iff.mpr ⟨⟨hnames, htoken⟩, ?_⟩⟩
  intro h hmem
  rcases List.mem_append.mp hmem with hkept | hminted
  · obtain ⟨hin, hdate, hconnection⟩ := ScriptResponse.mem_kept.mp hkept
    rw [hlookup h.1 hdate hconnection, lookup_reverse_of_only hin]
    · rfl
    · intro g hg hname
      refine List.inj_on_of_nodup_map hnames ?_ hkept hname
      exact ScriptResponse.mem_kept.mpr ⟨hg, hname ▸ hdate,
        hname ▸ hconnection⟩
  · -- The token's line is the one the authenticator has left.
    cases hauth : entry.isAuthenticator with
    | false =>
        rw [tokenLine, hauth] at hminted
        cases hminted
    | true =>
        rw [tokenLine, hauth] at hminted
        obtain rfl := List.mem_singleton.mp hminted
        rw [hlookup setCookie (by decide) (by decide),
          lookup_reverse_of_not_mem (htoken hauth), Option.none_or]
        rcases hpassed.minted with ⟨hno, -⟩ | ⟨-, prior, hprior, -⟩
        · rw [hno] at hauth
          cases hauth
        · rw [hprior]
          exact AList.lookup_insert _

/-- Where something is replaced, it is missing. -/
theorem names_of_headersSurvive (hpassed : Passed env before after
      { router := router } s entry)
    (hroute : ScriptRoute entry) (hscript : env.script = prints r)
    (h : HeadersSurvive env entry r s) :
    digitsVal r.code ≠ 400 ∧ (r.kept.map Prod.fst).Nodup
      ∧ (entry.isAuthenticator = true →
        setCookie ∉ r.headers.map Prod.fst) := by
  obtain ⟨sent, accepted, hhead, hpart⟩ := h
  refine ⟨fun hcode => ?_, (subperm_due_iff.mp hpart).1⟩
  exact no_head_of_bad_request hpassed hroute hscript hcode hhead

end Law

-- ========================================================== what survives

/-- For every request the gate lets through to a script, and every
well-formed response the script prints in one chunk: its header lines and
the token's are sent exactly if its status is not 400, no two lines the
server may not replace have one name and, on an authenticator, none is a
`Set-Cookie`. -/
theorem headers_survive_iff (env : Env) {before after : List Limiter}
    {router : Router} {s : Txn} {entry : EndpointMethod}
    (hpassed : Passed env before after { router := router } s entry)
    (hroute : ScriptRoute entry) {r : ScriptResponse}
    (hscript : env.script = prints r) :
    HeadersSurvive env entry r s
      ↔ digitsVal r.code ≠ 400 ∧ (r.kept.map Prod.fst).Nodup
        ∧ (entry.isAuthenticator = true →
          setCookie ∉ r.headers.map Prod.fst) := by
  constructor
  · exact names_of_headersSurvive hpassed hroute hscript
  · intro h
    exact headersSurvive_of_names hpassed hroute hscript h.1 h.2.1 h.2.2

-- ================================================================ two runs

/-- A login whose script prints a response. -/
def loginPrints (r : ScriptResponse) : Env :=
  { loginEnv "" with script := prints r }

/-- The transaction behind the gate of a login. -/
def loginTxn (r : ScriptResponse) : Txn :=
  (runPipeline (loginPrints r) (gateComponents [.fixedWindow {}] [])
    { router := loginServer.router }).2

theorem passed_login {r : ScriptResponse}
    (hgate : (runPipeline (loginPrints r)
      (gateComponents [.fixedWindow {}] [])
      { router := loginServer.router }).1 = .ok ()) :
    Passed (loginPrints r) [.fixedWindow {}] []
      { router := loginServer.router } (loginTxn r) loginEntry := by
  have hrun : runPipeline (loginPrints r)
      (gateComponents [.fixedWindow {}] []) { router := loginServer.router }
      = (.ok (), loginTxn r) := Prod.ext hgate rfl
  obtain ⟨entry, hpassed⟩ := gate_ok (loginPrints r) hrun
  have hasks : Asks (loginPrints r) loginServer.router .post loginEntry :=
    ⟨bytes "/login", ({} : Endpoint).addMethod loginEntry, rfl, rfl, rfl,
      rfl⟩
  rw [hpassed.entry_eq (loginPrints r) hasks] at hpassed
  exact hpassed

theorem scriptRoute_login : ScriptRoute loginEntry := ⟨rfl, Or.inr rfl⟩

theorem okCode : (bytes "200").length = 3
    ∧ ∀ b ∈ bytes "200", isDigit b = true :=
  ⟨rfl, List.all_eq_true.mp rfl⟩

/-- A response with a header list. -/
def okResponse (headers : List (Bytes × Bytes)) (h : Readable headers) :
    ScriptResponse where
  code := bytes "200"
  reason := bytes "OK"
  headers := headers
  body := []
  code_ok := okCode
  reason_ok := by decide
  headers_ok := h

/-- A response that sets no cookie. -/
def plainResponse : ScriptResponse :=
  okResponse [(bytes "Server", bytes "cgi"), (bytes "Date", bytes "now")]
    (by unfold Readable; decide)

/-- Its line goes out, next to the token. -/
theorem headers_survive_plain :
    Passed (loginPrints plainResponse) [.fixedWindow {}] []
        { router := loginServer.router } (loginTxn plainResponse) loginEntry
      ∧ ScriptRoute loginEntry
      ∧ (loginPrints plainResponse).script = prints plainResponse
      ∧ HeadersSurvive (loginPrints plainResponse) loginEntry plainResponse
        (loginTxn plainResponse) := by
  refine ⟨passed_login rfl, scriptRoute_login, rfl, ?_⟩
  refine (headers_survive_iff (loginPrints plainResponse) (passed_login rfl)
    scriptRoute_login rfl).mpr ⟨by decide, by decide, fun _ => by decide⟩

/-- A response that sets a cookie of its own. -/
def cookieResponse : ScriptResponse :=
  okResponse [(setCookie, bytes "theme=dark")] (by unfold Readable; decide)

/-- A response that sets two. -/
def twoCookies : ScriptResponse :=
  okResponse [(setCookie, bytes "theme=dark"), (setCookie, bytes "lang=en")]
    (by unfold Readable; decide)

/-- A script's cookie takes the place of the token, and the second of two
that of the first. -/
theorem token_replaced :
    (¬ ∀ (env : Env) (before after : List Limiter) (router : Router)
        (s : Txn) (entry : EndpointMethod) (r : ScriptResponse),
        Passed env before after { router := router } s entry →
        ScriptRoute entry → env.script = prints r →
        HeadersSurvive env entry r s)
      ∧ ¬ HeadersSurvive (loginPrints cookieResponse) loginEntry
          cookieResponse (loginTxn cookieResponse)
      ∧ ¬ HeadersSurvive (loginPrints twoCookies) loginEntry twoCookies
          (loginTxn twoCookies) := by
  have hcookie : ¬ HeadersSurvive (loginPrints cookieResponse) loginEntry
      cookieResponse (loginTxn cookieResponse) := by
    intro h
    have hnames := (names_of_headersSurvive (passed_login rfl)
      scriptRoute_login rfl h).2.2 rfl
    exact hnames (by decide)
  refine ⟨fun hclaim => ?_, hcookie, fun h => ?_⟩
  · exact hcookie (hclaim _ _ _ _ _ _ _ (passed_login rfl)
      scriptRoute_login rfl)
  · have hnames := (names_of_headersSurvive (passed_login rfl)
      scriptRoute_login rfl h).2.1
    exact absurd hnames (by decide)

end CgiWebServer
