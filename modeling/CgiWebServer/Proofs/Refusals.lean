/-
A refused session reveals nothing of files and scripts.

The gate asks whether a file exists, never what it holds, and runs no
script, so it takes the same course on any two machines that differ in
what their files hold and their scripts print (`runGate_eq`). What it
leaves in the table is all one session leaves to the next, so whole
histories of sessions leave the same server (`after_eq`), whatever they
served. Behind a gate that refuses, an error page is sent: its file is
the only one the client sees anything of.
-/
import CgiWebServer.Proofs.Authorization

namespace CgiWebServer

open Process

-- ============================================================ two machines

/-- Two machines that differ in what files hold and scripts print, and in
nothing else. -/
def OtherContents (env env' : Env) : Prop :=
  ∃ file script, env' = { env with file := file, script := script }

/-- The configured error pages have the same files on both. -/
def SamePages (env env' : Env) (r : Router) : Prop :=
  ∀ status page, r.getErrorPage status = some page →
    ∀ time, env'.file time (cStr page) = env.file time (cStr page)

variable {env env' : Env}

/-- A gate runs the same on both. -/
theorem runGate_eq (h : OtherContents env env')
    {components : List Component} (hgate : ∀ c ∈ components, c.IsGate) :
    runPipeline env' components = runPipeline env components := by
  obtain ⟨file, script, rfl⟩ := h
  induction components with
  | nil => rfl
  | cons c rest ih =>
      have hnext := ih fun c' hc' => hgate c' (List.mem_cons_of_mem _ hc')
      have hc := hgate c List.mem_cons_self
      unfold runPipeline
      rw [hnext]
      cases c with
      | logger => rfl
      | errorHandler => exact absurd hc fun hfalse => hfalse
      | parser => rfl
      | limiter l => cases l <;> rfl
      | rateLimiter => rfl
      | authenticator => rfl

-- ============================================================= error pages

theorem serveErrorPage_eq (h : OtherContents env env') {page : Bytes}
    (hpage : ∀ time, env'.file time (cStr page) = env.file time (cStr page)) :
    serveErrorPage env' page = serveErrorPage env page := by
  have hopen : openFileStreamer env' .openedPage page
      = openFileStreamer env .openedPage page := by
    funext s
    rw [openFileStreamer_apply, openFileStreamer_apply, hpage]
  obtain ⟨file, script, rfl⟩ := h
  unfold serveErrorPage
  rw [hopen]
  rfl

/-- An exception is answered the same on both, where its page is. -/
theorem answerError_eq (h : OtherContents env env') {e : Exn} {s : Txn}
    (hpages : SamePages env env' s.router) :
    answerError env' e s = answerError env e s := by
  have hpage : errorPage env'
        (s.router.getErrorPage (errorResponse e).status)
      = errorPage env (s.router.getErrorPage (errorResponse e).status) := by
    cases hconfigured : s.router.getErrorPage (errorResponse e).status with
    | none =>
        obtain ⟨file, script, rfl⟩ := h
        rfl
    | some page =>
        have hserve := serveErrorPage_eq h (hpages _ page hconfigured)
        obtain ⟨file, script, rfl⟩ := h
        show configuredErrorPage _ page = configuredErrorPage env page
        unfold configuredErrorPage
        rw [hserve]
        rfl
  show errorPage env' _ _ = errorPage env _ _
  rw [hpage]

-- ================================================================ sessions

section Sessions

variable {before after : List Limiter} {srv : Server}

/-- What a session leaves in the table is what its gate leaves there. -/
theorem router_serve (hpipeline : srv.pipeline
      = .logger :: .errorHandler :: gateComponents before after) :
    (srv.serve env).router
      = (runPipeline env (gateComponents before after)
          { router := srv.router }).2.router := by
  rcases serve_answered env hpipeline with
    ⟨stop, s₁, hrun, hanswered⟩ | ⟨s₁, entry, hrun, hpassed, hanswered⟩
  · rw [hrun]
    exact hanswered.emits.2.1
  · rw [hrun]
    exact hanswered.emits.2.1.trans (finish_events env hpassed.routed).2.1

/-- So sessions on two machines leave the same server. -/
theorem after_eq (hpipeline : srv.pipeline
      = .logger :: .errorHandler :: gateComponents before after)
    {envs envs' : List Env} (h : List.Forall₂ OtherContents envs envs') :
    srv.after envs' = srv.after envs := by
  induction h generalizing srv with
  | nil => rfl
  | cons hhead _ ih =>
      have hgate := runGate_eq hhead (isGate_gateComponents before after)
      unfold Server.after
      rw [router_serve hpipeline, router_serve hpipeline, hgate]
      exact ih hpipeline

/-- A session that runs no handler goes the same way on both machines. -/
theorem refused_eq (hpipeline : srv.pipeline
      = .logger :: .errorHandler :: gateComponents before after)
    (h : OtherContents env env') (hpages : SamePages env env' srv.router)
    (hrefused : ∀ kind, .handler kind ∉ (srv.serve env).trace) :
    errorHandlerProcess env' (runPipeline env' (gateComponents before after))
        { router := srv.router }
      = errorHandlerProcess env (runPipeline env (gateComponents before after))
          { router := srv.router } := by
  have hquiet := (gateQuiet_runPipeline env
    (isGate_gateComponents before after) { router := srv.router }).1
  rw [runGate_eq h (isGate_gateComponents before after),
    errorHandler_apply, errorHandler_apply]
  rcases serve_answered env hpipeline with
    ⟨stop, s₁, hrun, -⟩ | ⟨s₁, entry, hrun, hpassed, hanswered⟩
  · rw [Proc.bind_of_error hrun, Proc.bind_of_error hrun]
    cases stop with
    | raised e =>
        rw [hrun] at hquiet
        have hpages' : SamePages env env' s₁.router := by
          intro status page hpage
          rw [Router.getErrorPage, hquiet.1.errorPages] at hpage
          exact hpages status page hpage
        exact answerError_eq h hpages'
    | pending => rfl
    | crash => rfl
  · -- behind a gate that passed, an entry with a handler would run it
    have hnone : entry.handler = none := by
      obtain ⟨-, -, pages, htrace, -⟩ := hanswered.emits
      obtain ⟨-, -, own, hown, -⟩ := finish_events env hpassed.routed
      cases hhandler : entry.handler with
      | none => rfl
      | some kind =>
          refine absurd ?_ (hrefused kind)
          rw [htrace, hown, hhandler]
          simp
    rw [Proc.bind_of_ok hrun, Proc.bind_of_ok hrun,
      finish_routed env hpassed.routed, finish_routed env' hpassed.routed,
      hnone]

end Sessions

/-- For every configuration that loads, and for two machines on which
any sequence of sessions has been served that differed in what files
held and scripts printed, in nothing else: a session that runs no
handler ends the same way on both, with the same events and so the same
bytes to the client. Only the configured error pages are asked to be
the same. -/
theorem refused_reveals_nothing {contentPath : Bytes}
    {serverConfig : XMLElement} {errorPages : AList fun _ : Code => Bytes}
    {srv : Server}
    (hload : initializeServer contentPath serverConfig errorPages = .ok srv)
    {envs envs' : List Env}
    (hhistory : List.Forall₂ OtherContents envs envs')
    (h : OtherContents env env') (hpages : SamePages env env' srv.router)
    (hrefused : ∀ kind,
      .handler kind ∉ ((srv.after envs).serve env).trace) :
    runPipeline env' (srv.after envs').pipeline
        { router := (srv.after envs').router }
      = runPipeline env (srv.after envs).pipeline
          { router := (srv.after envs).router } := by
  obtain ⟨before, after, hpipeline, -⟩ := initializeServer_gate hload
  obtain ⟨hsame, hgrown⟩ := grown_after hpipeline envs
  have hlater := hsame.trans hpipeline
  have hpages' : SamePages env env' (srv.after envs).router := by
    intro status page hpage
    rw [Router.getErrorPage, hgrown.errorPages] at hpage
    exact hpages status page hpage
  rw [after_eq hpipeline hhistory, hlater]
  exact refused_eq hlater h hpages' hrefused

/-- The member's request, without the token. -/
def strangerEnv : Env :=
  { memberEnv with
    readData := bytes "GET /members HTTP/1.1\r\nHost: localhost\r\n\r\n" }

/-- The stranger sees nothing of what the members' script prints. -/
theorem refused_reveals_nothing_stranger :
    ∃ srv, initializeServer [] memberConfig ∅ = .ok srv
      ∧ runPipeline { strangerEnv with script := { reads :=
            [.chunk (bytes "HTTP/1.1 200 OK\r\n\r\nmembers only"), .eof] } }
          srv.pipeline { router := srv.router }
        = runPipeline strangerEnv srv.pipeline { router := srv.router } := by
  have hloads : initializeServer [] memberConfig ∅ = .ok _ := rfl
  refine ⟨_, hloads, refused_reveals_nothing hloads .nil ⟨_, _, rfl⟩
    (fun _ _ _ _ => rfl) ?_⟩
  intro kind hkind
  cases List.mem_singleton.mp hkind

end CgiWebServer
