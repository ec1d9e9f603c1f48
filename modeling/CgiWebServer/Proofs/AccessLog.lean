/-
The access log tells what was sent.

`Logger` runs outermost, so it reads the response behind everything that
may still change it: a relayed script, an exception's answer, a
configured page that gave way to the default one. What it writes down
is the status line of the last head all the same, because every process
that changes the line sends a head with it before it returns
(`stays_runPipeline`, for the kind that asks nothing of a response).
-/
import CgiWebServer.Proofs.Authorization
import CgiWebServer.Proofs.ResponseHeads
import CgiWebServer.Proofs.SessionLine

namespace CgiWebServer

open Process

/-- The level of a response's entry. -/
def levelOf (r : Response) : LogLevel :=
  if isSuccessCode r.status then .info else .error

/-- An entry that tells of a client's response, and of the request in a
buffer. -/
structure TellsOf (ip buffer : Bytes) (r : Response) (e : SessionEntry) :
    Prop where
  client : e.clientAddr = ip
  request : getHeaderLine buffer = .ok e.request
  agent : getUserAgent buffer = .ok e.userAgent
  response : e.response = r.statusMsg
  level : e.level = levelOf r

/-- The kind that asks nothing of a response. -/
theorem headKind_any (env : Env) : HeadKind env fun _ => True where
  fresh := fun _ => True.intro
  setStatus := fun _ _ => True.intro
  addHeader := fun _ _ => True.intro
  scriptLine := fun _ _ => True.intro
  setBody := fun _ _ => True.intro
  scriptHeaders := fun _ _ => True.intro

/-- Behind a pipeline that returned, the response has the line of the
head that was sent last. -/
theorem sameLine_returned {env : Env} {pipeline : List Component}
    {router : Router} {s : Txn}
    (hrun : runPipeline env pipeline { router := router } = (.ok (), s)) :
    SameLine (lastHead s.trace) s.response :=
  ((stays_runPipeline (headKind_any env) pipeline).returned
    (posted_start (headKind_any env) router) hrun).line

/-- `Logger` throws nothing of its own. -/
theorem loggerProcess_tells (ip buffer : Bytes) (response : Response)
    (rttEndTime : Int) (entry : SessionEntry) :
    ∃ logged, loggerProcess ip buffer response rttEndTime entry = .ok logged
      ∧ TellsOf ip buffer response logged := by
  obtain ⟨agent, hagent, -⟩ := getUserAgent_unbroken buffer
  obtain ⟨line, hline, -⟩ := getHeaderLine_unbroken buffer
  have hlogged : loggerProcess ip buffer response rttEndTime entry
      = .ok { entry with
          clientAddr := ip
          userAgent := agent
          request := line
          response := response.statusMsg
          rttEndTime := rttEndTime
          level := levelOf response } := by
    simp only [loggerProcess, bind, Except.bind, hagent, hline]
    rfl
  exact ⟨_, hlogged, rfl, hline, hagent, rfl, rfl⟩

/-- An entry tells of no more than a response's line. -/
theorem TellsOf.of_sameLine {ip buffer : Bytes} {r r' : Response}
    {e : SessionEntry} (h : TellsOf ip buffer r e) (hsame : SameLine r' r) :
    TellsOf ip buffer r' e where
  client := h.client
  request := h.request
  agent := h.agent
  response := h.response.trans hsame.1.symm
  level := by
    rw [h.level, levelOf, levelOf, hsame.2]

/-- For every configuration that loads and every sequence of sessions:
a session that returns is logged with the status line of the last head
it gave to the socket, and with the level of that head's status. One
that sent no head is logged as `200 OK`. The buffer is what `Logger`
finds: the bytes that were read, or zeros where a limiter in front of
the parser refused. -/
theorem session_logged {contentPath : Bytes} {serverConfig : XMLElement}
    {errorPages : AList fun _ : Code => Bytes} {srv : Server}
    (h : initializeServer contentPath serverConfig errorPages = .ok srv)
    (envs : List Env) (env : Env) {s : Txn}
    (hrun : runPipeline env (srv.after envs).pipeline
      { router := (srv.after envs).router } = (.ok (), s))
    (buffer : Bytes) (rttEndTime : Int) (entry : SessionEntry) :
    (srv.after envs).pipeline.head? = some .logger
      ∧ ∃ logged, loggerProcess env.ip buffer s.response rttEndTime entry
            = .ok logged
          ∧ TellsOf env.ip buffer (lastHead s.trace) logged := by
  obtain ⟨before, after, hpipeline, -⟩ := initializeServer_gate h
  obtain ⟨hsame, -⟩ := grown_after hpipeline envs
  refine ⟨by rw [hsame, hpipeline]; rfl, ?_⟩
  obtain ⟨logged, hlogged, htells⟩ :=
    loggerProcess_tells env.ip buffer s.response rttEndTime entry
  exact ⟨logged, hlogged, htells.of_sameLine (sameLine_returned hrun)⟩

/-- Where nothing is printed no head is sent, and the entry is that of a
success; a head that is relayed is the entry's. -/
theorem session_logged_relayed :
    (∃ (s : Txn) (logged : SessionEntry), headsOf s.trace = []
        ∧ loggerProcess (printsEnv []).ip (printsEnv []).buffer s.response
            0 {} = .ok logged
        ∧ logged.response = bytes "HTTP/1.1 200 OK"
        ∧ logged.level = .info)
      ∧ ∃ (s : Txn) (logged : SessionEntry), (headsOf s.trace).length = 1
        ∧ loggerProcess (printsEnv [missingHead]).ip
            (printsEnv [missingHead]).buffer s.response 0 {} = .ok logged
        ∧ logged.response = bytes "HTTP/1.1 404 Not Found"
        ∧ logged.level = .error := by
  have hreturns : ∀ chunks, chunks = [] ∨ chunks = [missingHead] →
      runPipeline (printsEnv chunks) (memberServer.after []).pipeline
          { router := (memberServer.after []).router }
        = (.ok (), memberServer.serve (printsEnv chunks)) := by
    rintro chunks (rfl | rfl) <;>
      exact Prod.ext (by decide +kernel)
        (by simp only [Server.serve, transact, Server.after])
  constructor
  · obtain ⟨-, logged, hlogged, htells⟩ :=
      session_logged initializeServer_member [] (printsEnv [])
        (hreturns _ (Or.inl rfl)) (printsEnv []).buffer 0 {}
    exact ⟨_, logged, by decide +kernel, hlogged,
      htells.response.trans (by decide +kernel),
      htells.level.trans (by decide +kernel)⟩
  · obtain ⟨-, logged, hlogged, htells⟩ :=
      session_logged initializeServer_member [] (printsEnv [missingHead])
        (hreturns _ (Or.inr rfl)) (printsEnv [missingHead]).buffer 0 {}
    exact ⟨_, logged, by decide +kernel, hlogged,
      htells.response.trans (by decide +kernel),
      htells.level.trans (by decide +kernel)⟩

end CgiWebServer
