/-
When HEAD answers as GET would, for the file of a default endpoint.

# The two orders

GET looks the extension up first, sends its head and opens the file
behind it: an extension that is listed is a success with a type and
without a length, whether there is a file or not. HEAD opens the file
first: none to open or an empty one is not found, whether its extension
is listed or not, and the head of a success has the length. So the first
heads of the two are alike only where both refuse for the extension
(`mirrors_iff`).

# The gate

The length is what tells the successes apart. The gate sets none
(`gateFrame_noLength`), so behind it a session of any server is one of these
(`serve_first`).
-/
import CgiWebServer.Proofs.Authorization
import CgiWebServer.Proofs.HandlerLines
import CgiWebServer.Proofs.Parsing

namespace CgiWebServer

open Process

-- ========================================================= the first head

/-- The first response among some events. -/
def firstHead : List Event → Option Response
  | [] => none
  | .head r _ :: _ => some r
  | _ :: rest => firstHead rest

/-- Events that send no response. -/
def NoHeads (events : List Event) : Prop :=
  ∀ r accepted, .head r accepted ∉ events

theorem firstHead_append {before after : List Event}
    (h : NoHeads before) : firstHead (before ++ after) = firstHead after := by
  induction before with
  | nil => rfl
  | cons e rest ih =>
      have hrest : NoHeads rest := fun r accepted hmem =>
        h r accepted (List.mem_cons_of_mem _ hmem)
      cases e with
      | head r accepted => exact absurd List.mem_cons_self (h r accepted)
      | _ => exact ih hrest

/-- The first response a run sends, from a transaction on. -/
def firstResponse (s : Txn) (run : Except Stop Unit × Txn) :
    Option Response :=
  firstHead (run.2.trace.drop s.trace.length)

variable (env : Env)

/-- A stretch that adds some events, a first head among them. -/
def Sends (s s' : Txn) (r : Response) : Prop :=
  ∃ before accepted after,
    s'.trace = s.trace ++ (before ++ .head r accepted :: after)
      ∧ NoHeads before

theorem Sends.firstResponse {s : Txn} {run : Except Stop Unit × Txn}
    {r : Response} (h : Sends s run.2 r) : firstResponse s run = some r := by
  obtain ⟨before, accepted, after, htrace, hnone⟩ := h
  rw [CgiWebServer.firstResponse, htrace, List.drop_left,
    firstHead_append hnone]
  rfl

/-- More events behind it do not matter. -/
theorem Sends.append {s t u : Txn} {r : Response} (h : Sends s t r)
    (hmore : ∃ events, u.trace = t.trace ++ events) : Sends s u r := by
  obtain ⟨before, accepted, after, htrace, hnone⟩ := h
  obtain ⟨events, hmore⟩ := hmore
  refine ⟨before, accepted, after ++ events, ?_, hnone⟩
  rw [hmore, htrace]
  simp only [List.append_assoc, List.cons_append]

/-- Nor do events in front of it that send nothing. -/
theorem Sends.prepend {s t u : Txn} {r : Response} {events : List Event}
    (htrace : t.trace = s.trace ++ events) (hnone : NoHeads events)
    (h : Sends t u r) : Sends s u r := by
  obtain ⟨before, accepted, after, htrace', hnone'⟩ := h
  refine ⟨events ++ before, accepted, after, ?_, ?_⟩
  · rw [htrace', htrace]
    simp only [List.append_assoc]
  · intro r accepted hmem
    rcases List.mem_append.mp hmem with hin | hin
    · exact hnone r accepted hin
    · exact hnone' r accepted hin

/-- One event that is no head. -/
theorem noHeads_singleton {e : Event} (he : ∀ r accepted, e ≠ .head r accepted) :
    NoHeads [e] := fun r accepted hmem =>
  he r accepted (List.mem_singleton.mp hmem).symm

/-- A head is sent as it was built. -/
theorem sends_afterHead (s : Txn) : Sends s (afterHead env s) (built env s) :=
  ⟨[], _, [], rfl, fun _ _ hmem => absurd hmem List.not_mem_nil⟩

/-- What the transaction is answered with changes nothing else. -/
theorem Sends.of_trace {s t u : Txn} {r : Response} (h : Sends t u r)
    (htrace : t.trace = s.trace) : Sends s u r := by
  obtain ⟨before, accepted, after, h, hnone⟩ := h
  exact ⟨before, accepted, after, htrace ▸ h, hnone⟩

-- ============================================================== answers

/-- The file system stands still. -/
def Steady : Prop := ∀ t t' path, env.file t path = env.file t' path

/-- The response of an answer's first head, before it is built: that of a
configured page that can be opened, or the answer itself. -/
def answerHead (a : Response) (page : Option Bytes) : Response :=
  match page with
  | none => a
  | some file =>
      match openFile file (env.file 0 (cStr file)) with
      | .error _ => a
      | .ok fileLen => pageResponse a fileLen

theorem defaultErrorPage_sends (s : Txn) :
    Sends s (defaultErrorPage env s).2 (built env s) := by
  rw [defaultErrorPage_apply]
  exact sends_afterHead env s

/-- What has been sent is sent, whatever is added to it. -/
theorem Sends.then {s : Txn} {r : Response} {t : Txn} (h : Sends s t r)
    {a : Act Unit} (ha : Only (fun _ => True) a) : Sends s (a t).2 r := by
  obtain ⟨-, -, events, htrace, -⟩ := (ha t).1
  exact h.append ⟨events, htrace⟩

/-- A head is sent before what follows it. -/
theorem streamHead_sends {rest : Unit → Act Unit}
    (hrest : ∀ x, Only (fun _ => True) (rest x)) (s : Txn) :
    Sends s ((streamHead env >>= rest) s).2 (built env s) := by
  have hhead := streamHead_apply env s
  cases hend : writeEndOf (headRun env s).result with
  | error stop =>
      rw [hend] at hhead
      rw [Proc.bind_of_error hhead]
      exact sends_afterHead env s
  | ok u =>
      rw [hend] at hhead
      rw [Proc.bind_of_ok hhead]
      exact (sends_afterHead env s).then (hrest u)

/-- A configured page that can be opened sends its head first, whatever
becomes of the rest. -/
theorem configuredErrorPage_sends {file : Bytes} {fileLen : Nat} {s : Txn}
    (hopen : openFile file (env.file s.time (cStr file)) = .ok fileLen) :
    Sends s (configuredErrorPage env file s).2
      ((pageResponse s.response fileLen).build (env.date (s.time + 1))) := by
  have hserve : Sends s (serveErrorPage env file s).2
      ((pageResponse s.response fileLen).build (env.date (s.time + 1))) := by
    have htime : (pageStart file fileLen s).time = s.time + 1 := time_emit _ s
    have hsent := streamHead_sends env
      (fun _ => only_streamFile env (fun _ => trivial) file
        (env.file s.time (cStr file)) fileLen) (pageStart file fileLen s)
    rw [built, htime] at hsent
    rw [serveErrorPage_of_open env hopen]
    exact hsent.prepend rfl (noHeads_singleton fun _ _ h => by cases h)
  rw [configuredErrorPage_apply]
  cases hrun : serveErrorPage env file s with
  | mk result s' =>
      rw [hrun] at hserve
      cases result with
      | ok u => exact hserve
      | error stop =>
          cases stop with
          | raised e =>
              exact hserve.then (only_defaultErrorPage env fun _ _ => trivial)
          | pending => exact hserve
          | crash => exact hserve

/-- An answer sends it. -/
theorem answerError_sends (hsteady : Steady env) (e : Exn) (s : Txn) :
    ∃ time, Sends s (answerError env e s).2
      ((answerHead env (errorResponse e) (s.router.getErrorPage
        (errorResponse e).status)).build (env.date time)) := by
  show ∃ time, Sends s (errorPage env
    (s.router.getErrorPage (errorResponse e).status)
    (withResponse (errorResponse e) s)).2 _
  cases s.router.getErrorPage (errorResponse e).status with
  | none =>
      exact ⟨s.time, (defaultErrorPage_sends env _).of_trace rfl⟩
  | some file =>
      refine ⟨s.time + 1, ?_⟩
      -- The page is opened at the session's own time; a steady file system
      -- shows the same file at every time.
      have hfile := hsteady s.time 0 (cStr file)
      show Sends s (configuredErrorPage env file _).2 _
      cases hopen : openFile file (env.file 0 (cStr file)) with
      | error e' =>
          have hhead : answerHead env (errorResponse e) (some file)
              = errorResponse e := by
            simp only [answerHead, hopen]
          rw [← hfile] at hopen
          have hsent := defaultErrorPage_sends env
            (emit (.openedPage (cStr file))
              (withResponse (errorResponse e) s))
          rw [built, time_emit, time_withResponse] at hsent
          rw [hhead, configuredErrorPage_apply,
            serveErrorPage_of_error env
              (s := withResponse (errorResponse e) s) hopen]
          exact hsent.prepend rfl (noHeads_singleton fun _ _ h => by cases h)
      | ok fileLen =>
          have hhead : answerHead env (errorResponse e) (some file)
              = pageResponse (errorResponse e) fileLen := by
            simp only [answerHead, hopen]
          rw [← hfile] at hopen
          rw [hhead]
          exact (configuredErrorPage_sends env
            (s := withResponse (errorResponse e) s) hopen).of_trace rfl

-- ============================================================ the handlers

/-- The entry of a default endpoint for GET or HEAD. -/
def defaultEntry (endpoint : Bytes) (m : Method) (kind : HandlerKind) :
    EndpointMethod :=
  { m := m, accessRole := viewerRole, resource := publicDir ++ endpoint,
    handler := some kind }

/-- A transaction the gate has let through to a default endpoint. -/
structure AtDefault (s : Txn) (endpoint : Bytes) : Prop where
  url : s.request.endpointUrl = endpoint
  pointer : s.request.endpoint = some endpoint
  entry : ∃ ep, Router.defaultEndpoint endpoint = .ok ep
    ∧ s.router.deref endpoint = some ep
  noLength : bytes "Content-Length" ∉ s.response.headers

/-- The same transaction with a request of another method. -/
def withMethod (m : Method) (s : Txn) : Txn :=
  { s with request :=
      { s.request with
        method := m
        route := some { endpoint := s.request.endpointUrl, method := m } } }

/-- What `ErrorHandler` does with it behind the gate: the handler, and an
answer to what that throws. -/
def handled (m : Method) (s : Txn) : Except Stop Unit × Txn :=
  errorHandlerProcess env (pure ()) (withMethod m s)

/-- The end of a handler's run: an exception is answered. -/
def recovered : Except Stop Unit × Txn → Except Stop Unit × Txn
  | (.error (.raised e), s) => answerError env e s
  | run => run

variable {env}

/-- It is what `ErrorHandler` makes of it. -/
theorem handled_eq {m : Method} {s : Txn} {entry : EndpointMethod}
    {kind : HandlerKind} (h : Routed (withMethod m s).request s.router entry)
    (hkind : entry.handler = some kind) :
    handled env m s
      = recovered env (kind.run env (begun kind (withMethod m s))) := by
  have hfinish : (pure () >>= fun _ => finish env) (withMethod m s)
      = kind.run env (begun kind (withMethod m s)) :=
    finish_of_handler env h hkind
  rw [handled, errorHandler_apply, hfinish]
  cases kind.run env (begun kind (withMethod m s)) with
  | mk result s' =>
      cases result with
      | ok u => rfl
      | error stop => cases stop <;> rfl

/-- A run that sends a head has sent it, whatever it is answered with. -/
theorem recovered_sends {s : Txn} {run : Except Stop Unit × Txn}
    {r : Response} (h : Sends s run.2 r) : Sends s (recovered env run).2 r := by
  obtain ⟨result, s'⟩ := run
  cases result with
  | ok u => exact h
  | error stop =>
      cases stop with
      | raised e =>
          exact h.then (only_answerError env (fun _ _ => trivial)
            (fun _ => trivial) (fun _ => trivial) e)
      | pending => exact h
      | crash => exact h

section Runs

variable {s : Txn} {endpoint : Bytes} (hs : AtDefault s endpoint)
include hs

theorem routed_default {m : Method} {kind : HandlerKind}
    (hm : (m = .get ∧ kind = .get) ∨ (m = .head ∧ kind = .head)) :
    Routed (withMethod m s).request s.router
      (defaultEntry endpoint m kind) := by
  obtain ⟨ep, hep, hderef⟩ := hs.entry
  refine ⟨hs.pointer.trans (congrArg some hs.url.symm), rfl, ?_⟩
  show (s.router.deref s.request.endpointUrl).bind _ = _
  rw [hs.url, hderef]
  cases hep
  rcases hm with ⟨rfl, rfl⟩ | ⟨rfl, rfl⟩
  · rfl
  · rfl

/-- GET sends or refuses the endpoint's file. -/
theorem handled_get : handled env .get s
    = recovered env (GetHandler.handleFile env
        (defaultEntry endpoint .get .get)
        (begun .get (withMethod .get s))) := by
  have hrouted := routed_default hs (Or.inl ⟨rfl, rfl⟩)
  rw [handled_eq hrouted rfl]
  exact congrArg _ (getHandler_routed env
    (s := begun .get (withMethod .get s)) hrouted)

/-- HEAD builds its response and sends it. -/
theorem handled_head : handled env .head s
    = recovered env ((HeadHandler.buildResponse env
        (defaultEntry endpoint .head .head) >>= fun _ => streamHead env)
        (begun .head (withMethod .head s))) := by
  have hrouted := routed_default hs (Or.inr ⟨rfl, rfl⟩)
  rw [handled_eq hrouted rfl]
  exact congrArg _ (headHandler_routed env
    (s := begun .head (withMethod .head s)) hrouted)

/-- GET refuses a file without a type. -/
theorem get_first_of_noType (hsteady : Steady env)
    (htype : determineContentType (publicDir ++ endpoint) = none) :
    ∃ time, firstResponse s (handled env .get s)
      = some ((answerHead env (plainAnswer .forbidden)
          (s.router.getErrorPage .forbidden)).build (env.date time)) := by
  have hrun : ∃ e, GetHandler.handleFile env (defaultEntry endpoint .get .get)
        (begun .get (withMethod .get s))
      = (.error (.raised e), begun .get (withMethod .get s))
      ∧ errorResponse e = plainAnswer .forbidden := by
    unfold GetHandler.handleFile
    simp only [Proc.bind_apply, Proc.get_apply, defaultEntry, htype]
    exact ⟨_, rfl, rfl⟩
  obtain ⟨e, hrun, he⟩ := hrun
  obtain ⟨time, hsent⟩ := answerError_sends env hsteady e
    (begun .get (withMethod .get s))
  rw [he] at hsent
  refine ⟨time, Sends.firstResponse ?_⟩
  rw [handled_get hs, hrun]
  exact hsent.prepend rfl (noHeads_singleton fun _ _ h => by cases h)

/-- GET sends a head for a file with one, whatever the file is like. -/
theorem get_first_of_type {c : Bytes}
    (htype : determineContentType (publicDir ++ endpoint) = some c) :
    ∃ time, firstResponse s (handled env .get s)
      = some ((fileResponse c s.response).build (env.date time)) := by
  refine ⟨s.time + 1, Sends.firstResponse ?_⟩
  rw [handled_get hs]
  apply recovered_sends
  rw [handleFile_of_type env htype]
  have hrest : ∀ x : Unit, Only (fun _ => True)
      (sendFile env (publicDir ++ endpoint)) := fun _ =>
    only_bind (only_openFileStreamer env trivial) fun _ =>
      only_bind (only_modifyResponse _) fun _ =>
        only_streamFile env (fun _ => trivial) _ _ _
  have hsent := streamHead_sends env hrest
    (withResponse (fileResponse c s.response)
      (begun .get (withMethod .get s)))
  have htime : (withResponse (fileResponse c s.response)
      (begun .get (withMethod .get s))).time = s.time + 1 := time_emit _ _
  rw [built, htime] at hsent
  exact hsent.prepend rfl (noHeads_singleton fun _ _ h => by cases h)

/-- The file HEAD finds cannot be opened or is empty. -/
def Unopened (env : Env) (endpoint : Bytes) : Prop :=
  (env.file 0 (cStr (publicDir ++ endpoint))).opens = false
    ∨ (env.file 0 (cStr (publicDir ++ endpoint))).fileLen ≤ 0

omit hs in
/-- It finds it the same whenever it looks. -/
theorem unopened_begun (hsteady : Steady env) {t : Nat} :
    ((env.file t (cStr (defaultEntry endpoint .head .head).resource)).opens
        = false
      ∨ (env.file t (cStr (defaultEntry endpoint .head .head).resource)).fileLen
        ≤ 0) ↔ Unopened env endpoint := by
  rw [hsteady t 0]
  rfl

/-- HEAD does not find it. -/
theorem head_first_of_unopened (hsteady : Steady env)
    (hopen : Unopened env endpoint) :
    ∃ time, firstResponse s (handled env .head s)
      = some ((answerHead env (plainAnswer .notFound)
          (s.router.getErrorPage .notFound)).build (env.date time)) := by
  have hrun := (buildResponse_routed env
    (s := begun .head (withMethod .head s))
    (routed_default hs (Or.inr ⟨rfl, rfl⟩))).trans
    (if_pos ((unopened_begun hsteady).mpr hopen))
  obtain ⟨time, hsent⟩ := answerError_sends env hsteady
    (HeadHandler.notOpened (publicDir ++ endpoint) s.request.endpointUrl)
    (emit (.opened (cStr (publicDir ++ endpoint)))
      (begun .head (withMethod .head s)))
  refine ⟨time, Sends.firstResponse ?_⟩
  rw [handled_head hs, Proc.bind_of_error hrun]
  exact (hsent.prepend rfl (noHeads_singleton fun _ _ h => by cases h)).prepend
    rfl (noHeads_singleton fun _ _ h => by cases h)

/-- HEAD refuses a file without a type once it has opened it. -/
theorem head_first_of_noType (hsteady : Steady env)
    (hopen : ¬ Unopened env endpoint)
    (htype : determineContentType (publicDir ++ endpoint) = none) :
    ∃ time, firstResponse s (handled env .head s)
      = some ((answerHead env (plainAnswer .forbidden)
          (s.router.getErrorPage .forbidden)).build (env.date time)) := by
  have hrun := (buildResponse_routed env
    (s := begun .head (withMethod .head s))
    (routed_default hs (Or.inr ⟨rfl, rfl⟩))).trans
    (if_neg (mt (unopened_begun hsteady).mp hopen))
  simp only [defaultEntry, htype] at hrun
  obtain ⟨time, hsent⟩ := answerError_sends env hsteady
    (.http (.mk' .forbidden
      (bytes "failed to extract content type for endpoint="
        ++ s.request.endpointUrl ++ bytes ", from file="
        ++ (publicDir ++ endpoint)) ∅))
    (emit (.opened (cStr (publicDir ++ endpoint)))
      (begun .head (withMethod .head s)))
  refine ⟨time, Sends.firstResponse ?_⟩
  rw [handled_head hs, defaultEntry, Proc.bind_of_error hrun]
  exact (hsent.prepend rfl (noHeads_singleton fun _ _ h => by cases h)).prepend
    rfl (noHeads_singleton fun _ _ h => by cases h)

/-- HEAD tells the type and the length of any other file. -/
theorem head_first_of_type (hsteady : Steady env)
    (hopen : ¬ Unopened env endpoint) {c : Bytes}
    (htype : determineContentType (publicDir ++ endpoint) = some c) :
    ∃ time, firstResponse s (handled env .head s)
      = some ((headResponse c
          (env.file 0 (cStr (publicDir ++ endpoint))).fileLen
          s.response).build (env.date time)) := by
  have hrun := (buildResponse_routed env
    (s := begun .head (withMethod .head s))
    (routed_default hs (Or.inr ⟨rfl, rfl⟩))).trans
    (if_neg (mt (unopened_begun hsteady).mp hopen))
  simp only [defaultEntry, htype] at hrun
  rw [hsteady _ 0] at hrun
  refine ⟨s.time + 2, Sends.firstResponse ?_⟩
  rw [handled_head hs, defaultEntry, Proc.bind_of_ok hrun]
  apply recovered_sends
  rw [streamHead_apply]
  have hsent := sends_afterHead env (withResponse
    (headResponse c (env.file 0 (cStr (publicDir ++ endpoint))).fileLen
      s.response)
    (emit (.opened (cStr (publicDir ++ endpoint)))
      (begun .head (withMethod .head s))))
  rw [built, time_withResponse, time_emit, time_begun] at hsent
  exact (hsent.prepend (t := withResponse _
      (emit (.opened (cStr (publicDir ++ endpoint)))
        (begun .head (withMethod .head s)))) rfl
    (noHeads_singleton fun _ _ h => by cases h)).prepend
    rfl (noHeads_singleton fun _ _ h => by cases h)

end Runs

-- ================================================================ the gate

/-- No length has been set. -/
def NoLength (s : Txn) : Prop :=
  bytes "Content-Length" ∉ s.response.headers

/-- Headers of other names set none. -/
theorem noLength_foldl {fields : List (Bytes × Bytes)} {r : Response}
    (hfields : ∀ f ∈ fields, bytes "Content-Length" ≠ f.1)
    (h : bytes "Content-Length" ∉ r.headers) :
    bytes "Content-Length"
      ∉ (fields.foldl (fun r h => r.addHeader h.1 h.2) r).headers := by
  induction fields generalizing r with
  | nil => exact h
  | cons field rest ih =>
      refine ih (fun f hf => hfields f (List.mem_cons_of_mem _ hf)) ?_
      rw [Response.addHeader_headers, AList.mem_insert, not_or]
      exact ⟨hfields field List.mem_cons_self, h⟩

/-- The gate sets none. -/
theorem gateFrame_noLength (env : Env) :
    GateFrame env fun s s' => NoLength s → NoLength s' where
  refl _ h := h
  trans _ _ _ h h' hs := h' (h hs)
  headers s fields hfields h := by
    have hother : ∀ k ∈ gateHeaders, bytes "Content-Length" ≠ k := by decide
    exact noLength_foldl (fun f hf => hother f.1 (hfields f hf)) h
  lookup _ _ _ _ _ h := h
  request _ _ h := h
  minted _ _ h := h

/-- Where a server's gate lets a request through to a default endpoint,
the session answers with the handler of the request's method. -/
theorem serve_first {before after : List Limiter} {srv : Server}
    (hpipeline : srv.pipeline
      = .logger :: .errorHandler :: gateComponents before after)
    {s : Txn} (hrun : runPipeline env (gateComponents before after)
      { router := srv.router } = (.ok (), s)) {ep : Endpoint}
    (hdefault : Router.defaultEndpoint s.request.endpointUrl = .ok ep)
    (hentry : s.router.deref s.request.endpointUrl = some ep) :
    AtDefault s s.request.endpointUrl
      ∧ firstHead (srv.serve env).trace
        = firstResponse s (handled env s.request.method s) := by
  obtain ⟨entry, hpassed⟩ := gate_ok env hrun
  have hgate := isGate_gateComponents before after
  have hnone := (gate_runPipeline (gateFrame_noLength env) hgate
    { router := srv.router }).1 (AList.notMem_empty _)
  have hquiet := (gateQuiet_runPipeline env hgate { router := srv.router }).1
  -- The gate alone has written nothing and set no length, so what the
  -- client first sees is the handler's.
  rw [hrun] at hnone hquiet
  refine ⟨⟨rfl, hpassed.routed.endpoint, ⟨ep, hdefault, hentry⟩, hnone⟩, ?_⟩
  have hsame : withMethod s.request.method s = s := by
    unfold withMethod
    rw [← hpassed.routed.route]
  have hserve : srv.serve env = (handled env s.request.method s).2 := by
    rw [serve_eq env hpipeline, handled, hsame, errorHandler_apply,
      errorHandler_apply, Proc.bind_of_ok hrun]
    rfl
  have hanswered : Answered env (finish env s).2 (srv.serve env) := by
    have h := errorHandler_answered env (pure ()) s
      (finish_thrown env hpassed.routed)
    rw [hserve, handled, hsame]
    exact h
  obtain ⟨-, -, pages, htrace, -⟩ := hanswered.emits
  obtain ⟨-, -, own, hown, -⟩ := finish_events env hpassed.routed
  obtain ⟨-, events, hminted, hall⟩ := hquiet
  have hsilent : NoHeads s.trace := by
    intro r accepted hmem
    rw [hminted] at hmem
    obtain ⟨cookie, hcookie⟩ := hall _ hmem
    cases hcookie
  rw [firstResponse, ← hserve, htrace, hown]
  simp only [List.append_assoc, List.drop_left, firstHead_append hsilent]

-- ======================================================== HEAD beside GET

/-- Two responses that differ in the value of their `Date` at most. -/
structure Alike (g h : Response) : Prop where
  status : h.status = g.status
  statusMsg : h.statusMsg = g.statusMsg
  names : ∀ k, k ∈ h.headers ↔ k ∈ g.headers
  values : ∀ k, k ≠ bytes "Date" → h.headers.lookup k = g.headers.lookup k

/-- A response tells the type and the length of a default endpoint's
file. -/
structure TellsFile (env : Env) (endpoint : Bytes) (r : Response) :
    Prop where
  contentType : ∃ c, determineContentType (publicDir ++ endpoint) = some c
    ∧ r.headers.lookup (bytes "Content-Type") = some c
  contentLength : r.headers.lookup (bytes "Content-Length")
    = some (toStr (env.file 0 (cStr (publicDir ++ endpoint))).fileLen)

/-- HEAD's first response is like GET's, and a success tells of the
file. -/
def Mirrors (env : Env) (s : Txn) (endpoint : Bytes) : Prop :=
  ∃ g h, firstResponse s (handled env .get s) = some g
    ∧ firstResponse s (handled env .head s) = some h ∧ Alike g h
    ∧ (g.status = .ok → TellsFile env endpoint g ∧ TellsFile env endpoint h)

/-- A response built twice. -/
theorem alike_build (r : Response) (date date' : Bytes) :
    Alike (r.build date) (r.build date') where
  status := rfl
  statusMsg := rfl
  names k := by
    simp only [Response.build, Response.addHeader_headers, AList.mem_insert]
  values k hk := by
    simp only [Response.build, Response.addHeader_headers]
    rw [AList.lookup_insert_ne hk, AList.lookup_insert_ne hk]

/-- An answer's head has the answer's status. -/
theorem answerHead_status (a : Response) (page : Option Bytes) :
    (answerHead env a page).status = a.status := by
  unfold answerHead
  split
  · rfl
  · split
    · rfl
    · rfl

section Default

variable {s : Txn} {endpoint : Bytes} (hsteady : Steady env)
  (hs : AtDefault s endpoint)
include hsteady hs

/-- Of a file with a listed extension GET tells no length, and HEAD does
or does not find it. -/
theorem not_mirrors_of_type {c : Bytes}
    (htype : determineContentType (publicDir ++ endpoint) = some c) :
    ¬ Mirrors env s endpoint := by
  intro h
  obtain ⟨g, h, hg, hh, halike, -⟩ := h
  obtain ⟨time, hget⟩ := @get_first_of_type env s endpoint hs c htype
  cases hg.symm.trans hget
  by_cases hopen : Unopened env endpoint
  · obtain ⟨time', hhead⟩ := head_first_of_unopened hs hsteady hopen
    cases hh.symm.trans hhead
    have hstatus := halike.status
    simp only [Response.build, Response.addHeader] at hstatus
    rw [answerHead_status] at hstatus
    have hcode : Code.notFound = Code.ok := hstatus
    exact absurd hcode (by decide)
  · obtain ⟨time', hhead⟩ := head_first_of_type hs hsteady hopen htype
    cases hh.symm.trans hhead
    have hlength := (halike.names (bytes "Content-Length")).mp
    simp only [Response.build, headResponse, fileResponse,
      Response.addHeader_headers, AList.mem_insert, true_or, or_true,
      true_implies] at hlength
    rcases hlength with hdate | htype' | hconn | hmem
    · exact absurd hdate (by decide)
    · exact absurd htype' (by decide)
    · exact absurd hconn (by decide)
    · exact hs.noLength hmem

/-- Of a file without a type GET does not look for more, and HEAD does. -/
theorem not_mirrors_of_unopened
    (htype : determineContentType (publicDir ++ endpoint) = none)
    (hopen : Unopened env endpoint) : ¬ Mirrors env s endpoint := by
  intro h
  obtain ⟨g, h, hg, hh, halike, -⟩ := h
  obtain ⟨time, hget⟩ := get_first_of_noType hs hsteady htype
  obtain ⟨time', hhead⟩ := head_first_of_unopened hs hsteady hopen
  cases hg.symm.trans hget
  cases hh.symm.trans hhead
  have hstatus := halike.status
  simp only [Response.build, Response.addHeader] at hstatus
  rw [answerHead_status, answerHead_status] at hstatus
  have hcode : Code.notFound = Code.forbidden := hstatus
  exact absurd hcode (by decide)

/-- Both refuse a file that is there and has no type. -/
theorem mirrors_of_noType
    (htype : determineContentType (publicDir ++ endpoint) = none)
    (hopen : ¬ Unopened env endpoint) : Mirrors env s endpoint := by
  obtain ⟨time, hget⟩ := get_first_of_noType hs hsteady htype
  obtain ⟨time', hhead⟩ := head_first_of_noType hs hsteady hopen htype
  refine ⟨_, _, hget, hhead, alike_build _ _ _, fun hok => ?_⟩
  simp only [Response.build, Response.addHeader] at hok
  rw [answerHead_status] at hok
  have hcode : Code.forbidden = Code.ok := hok
  exact absurd hcode (by decide)

/-- On a file system that stands still, HEAD mirrors GET exactly if the
extension is not listed and the file can be opened and is not empty. -/
theorem mirrors_iff :
    Mirrors env s endpoint
      ↔ determineContentType (publicDir ++ endpoint) = none
        ∧ ¬ Unopened env endpoint := by
  constructor
  · intro hmirrors
    cases htype : determineContentType (publicDir ++ endpoint) with
    | none =>
        exact ⟨rfl, fun hopen =>
          not_mirrors_of_unopened hsteady hs htype hopen hmirrors⟩
    | some c =>
        exact absurd hmirrors (not_mirrors_of_type hsteady hs htype)
  · intro h
    obtain ⟨htype, hopen⟩ := h
    exact mirrors_of_noType hsteady hs htype hopen

end Default

/-- A machine on which every file is in one state. -/
def everyFile (state : File) : Env where
  file := fun _ _ => state

/-- A request of a default endpoint behind the gate of a server that has
nothing else. -/
def atDefault (endpoint : Bytes) : Txn where
  request := { endpointUrl := endpoint, endpoint := some endpoint }
  router :=
    { endpoints := AList.singleton endpoint
        ((Router.defaultEndpoint endpoint).toOption.getD {})
      errorPages := ∅ }

theorem steady_everyFile (state : File) : Steady (everyFile state) :=
  fun _ _ _ => rfl

theorem atDefault_notes : AtDefault (atDefault (bytes "/notes"))
    (bytes "/notes") where
  url := rfl
  pointer := rfl
  entry := ⟨_, rfl, rfl⟩
  noLength := AList.notMem_empty _

theorem atDefault_css : AtDefault (atDefault (bytes "/app.css"))
    (bytes "/app.css") where
  url := rfl
  pointer := rfl
  entry := ⟨_, rfl, rfl⟩
  noLength := AList.notMem_empty _

/-- A file without an extension is forbidden by both. -/
theorem mirrors_notes :
    Mirrors (everyFile { opens := true, fileLen := 5 })
      (atDefault (bytes "/notes")) (bytes "/notes") :=
  (mirrors_iff (steady_everyFile _) atDefault_notes).mpr
    ⟨by decide, by
      intro h
      rcases h with h | h
      · cases h
      · exact absurd h (by decide)⟩

/-- A stylesheet that is there is sent without a length by GET, and
announced with one by HEAD. -/
theorem stylesheet_not_mirrored :
    ¬ ∀ (env : Env) (s : Txn) (endpoint : Bytes), Steady env →
      AtDefault s endpoint → Mirrors env s endpoint := by
  intro hclaim
  have htype : determineContentType (publicDir ++ bytes "/app.css")
      = some (bytes "text/css") := by decide
  exact not_mirrors_of_type (steady_everyFile _) atDefault_css htype
    (hclaim (everyFile { opens := true, fileLen := 5 }) _ _
      (steady_everyFile _) atDefault_css)

end CgiWebServer
