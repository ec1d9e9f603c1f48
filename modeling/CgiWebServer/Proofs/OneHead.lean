/-
When a session sends a second response head.

# The ways to a second head

There are four (`SecondHead`). A script whose first two reads are relayed
sends two heads by itself. A handler that has sent its head and then
throws is answered like one that has not: the answer's head is the
second. And the answer to an exception, of the gate or of a handler, can
send two heads, the configured page's and the default page's.

# Exactness

`one_head_iff` says that these are all of them: on every configuration,
after every sequence of sessions and for every environment, the socket
takes at most one status line exactly if none of the four is met.
-/
import CgiWebServer.Proofs.Authorization
import CgiWebServer.Proofs.HandlerLines

namespace CgiWebServer

open Process

variable (env : Env)

-- ========================================================= the condition

/-- The run of the pipeline below `ErrorHandler`. -/
def gateRun (srv : Server) : Except Stop Unit × Txn :=
  runPipeline env (srv.pipeline.drop 2) { router := srv.router }

/-- The page configured for an answer. -/
def pageFor (r : Router) (a : Response) : Option Bytes :=
  r.getErrorPage a.status

/-- The gate has let a request through to the handler of an entry, which
starts with the gate's response, one event later. -/
structure Starts (srv : Server) (s₁ : Txn) (kind : HandlerKind)
    (entry : EndpointMethod) : Prop where
  passed : gateRun env srv = (.ok (), s₁)
  routed : Routed s₁.request s₁.router entry
  handler : entry.handler = some kind

/-- The ways to a second status line. -/
inductive SecondHead (srv : Server) : Prop
  | rejected {e : Exn} {s₁ : Txn} :
      gateRun env srv = (.error (.raised e), s₁) →
      AnswerTwice env (errorResponse e) s₁.time
        (pageFor s₁.router (errorResponse e)) →
      SecondHead srv
  | relayed {s₁ : Txn} {kind : HandlerKind} {entry : EndpointMethod} :
      Starts env srv s₁ kind entry →
      HandlerTwice env kind entry s₁.response (s₁.time + 1) →
      SecondHead srv
  | answered {s₁ : Txn} {kind : HandlerKind} {entry : EndpointMethod}
      {a : Response} {time : Nat} :
      Starts env srv s₁ kind entry →
      HandlerThrows env kind entry s₁.response (s₁.time + 1) true a time →
      AnswerSends env a time (pageFor s₁.router a) →
      SecondHead srv
  | answeredTwice {s₁ : Txn} {kind : HandlerKind} {entry : EndpointMethod}
      {sent : Bool} {a : Response} {time : Nat} :
      Starts env srv s₁ kind entry →
      HandlerThrows env kind entry s₁.response (s₁.time + 1) sent a time →
      AnswerTwice env a time (pageFor s₁.router a) →
      SecondHead srv

-- ============================================================ a session

/-- A handler starts with the gate's lines, one event later. -/
theorem lines_begun (kind : HandlerKind) (s : Txn) :
    lines (begun kind s) = lines s := lines_emit rfl s

section Session

variable {before after : List Limiter} {srv : Server}
  (hpipeline : srv.pipeline
    = .logger :: .errorHandler :: gateComponents before after)

include hpipeline

theorem gateRun_eq : gateRun env srv
    = runPipeline env (gateComponents before after)
        { router := srv.router } := by
  unfold gateRun
  rw [hpipeline]
  rfl

/-- The gate sends nothing. -/
theorem lines_gate : lines (gateRun env srv).2 = 0 := by
  rw [gateRun_eq env hpipeline]
  obtain ⟨-, events, htrace, hall⟩ := (gateQuiet_runPipeline env
    (isGate_gateComponents before after) { router := srv.router }).1
  unfold lines
  rw [htrace, List.countP_eq_zero]
  intro e he
  obtain ⟨cookie, rfl⟩ := hall e he
  exact Bool.false_ne_true

/-- A request the gate throws out is answered. -/
theorem serve_of_rejected {e : Exn} {s₁ : Txn}
    (h : gateRun env srv = (.error (.raised e), s₁)) :
    srv.serve env = (answerError env e s₁).2 := by
  rw [gateRun_eq env hpipeline] at h
  rw [serve_eq env hpipeline, errorHandler_apply, Proc.bind_of_error h]

/-- A request the gate leaves hanging is not. -/
theorem serve_of_stopped {stop : Stop} {s₁ : Txn}
    (h : gateRun env srv = (.error stop, s₁))
    (hstop : ∀ e, stop ≠ .raised e) : srv.serve env = s₁ := by
  rw [gateRun_eq env hpipeline] at h
  rw [serve_eq env hpipeline, errorHandler_apply, Proc.bind_of_error h]
  cases stop with
  | raised e => exact absurd rfl (hstop e)
  | pending => rfl
  | crash => rfl

/-- An exception of the finisher is answered. -/
theorem serve_of_raised {s₁ : Txn} {e : Exn}
    (h : gateRun env srv = (.ok (), s₁))
    (hraised : (finish env s₁).1 = .error (.raised e)) :
    srv.serve env = (answerError env e (finish env s₁).2).2 := by
  rw [gateRun_eq env hpipeline] at h
  rw [serve_eq env hpipeline, errorHandler_apply, Proc.bind_of_ok h]
  cases hfinish : finish env s₁ with
  | mk result s₂ =>
      rw [hfinish] at hraised
      cases hraised
      rfl

/-- Without one, the session is over. -/
theorem serve_of_calm {s₁ : Txn} (h : gateRun env srv = (.ok (), s₁))
    (hcalm : ∀ e, (finish env s₁).1 ≠ .error (.raised e)) :
    srv.serve env = (finish env s₁).2 := by
  rw [gateRun_eq env hpipeline] at h
  rw [serve_eq env hpipeline, errorHandler_apply, Proc.bind_of_ok h]
  cases hfinish : finish env s₁ with
  | mk result s₂ =>
      rw [hfinish] at hcalm
      cases result with
      | ok u => rfl
      | error stop =>
          cases stop with
          | raised e => exact absurd rfl (hcalm e)
          | pending => rfl
          | crash => rfl

/-- What an exception of the handler leads to: its own lines, and those
of the answer. -/
theorem lines_of_raises {s₁ : Txn} {kind : HandlerKind}
    {entry : EndpointMethod} (hstarts : Starts env srv s₁ kind entry)
    {sent : Bool} {a : Response} {time : Nat}
    (h : Raises (kind.run env (begun kind s₁)) (begun kind s₁) sent a time) :
    lines (srv.serve env)
      = sent.toNat + answerCount env a time (pageFor s₁.router a) := by
  obtain ⟨e, hthrew, rfl, rfl, hcount⟩ := h
  have hfinish := finish_of_handler env hstarts.routed hstarts.handler
  rw [← hfinish] at hthrew hcount ⊢
  have hrouter : (finish env s₁).2.router = s₁.router :=
    (finish_events env hstarts.routed).2.1
  have hzero : lines s₁ = 0 := by
    have hgate := lines_gate env hpipeline
    rw [hstarts.passed] at hgate
    exact hgate
  rw [serve_of_raised env hpipeline hstarts.passed hthrew,
    lines_answerError, hcount, lines_begun, hzero, hrouter, Nat.zero_add]
  rfl

/-- A handler that sends two lines by itself. -/
theorem lines_of_twice {s₁ : Txn} {kind : HandlerKind}
    {entry : EndpointMethod} (hstarts : Starts env srv s₁ kind entry)
    (h : HandlerTwice env kind entry s₁.response (s₁.time + 1)) :
    2 ≤ lines (srv.serve env) := by
  have hfinish := finish_of_handler env hstarts.routed hstarts.handler
  have htwice : lines (begun kind s₁) + 2 ≤ lines (finish env s₁).2 := by
    rw [hfinish]
    refine handler_twice env (s := begun kind s₁) hstarts.routed ?_
    rw [time_begun]
    exact h
  by_cases hraised : ∃ e, (finish env s₁).1 = .error (.raised e)
  · obtain ⟨e, hraised⟩ := hraised
    rw [serve_of_raised env hpipeline hstarts.passed hraised,
      lines_answerError]
    omega
  · rw [serve_of_calm env hpipeline hstarts.passed
      fun e he => hraised ⟨e, he⟩]
    omega

/-- What the handler throws leads to. -/
theorem lines_of_throws {s₁ : Txn} {kind : HandlerKind}
    {entry : EndpointMethod} (hstarts : Starts env srv s₁ kind entry)
    (honce : ¬ HandlerTwice env kind entry s₁.response (s₁.time + 1))
    {sent : Bool} {a : Response} {time : Nat}
    (h : HandlerThrows env kind entry s₁.response (s₁.time + 1) sent a
      time) :
    lines (srv.serve env)
      = sent.toNat + answerCount env a time (pageFor s₁.router a) := by
  refine lines_of_raises env hpipeline hstarts
    (handler_throws env (s := begun kind s₁) hstarts.routed ?_ ?_)
  · rw [time_begun]
    exact honce
  · rw [time_begun]
    exact h

/-- Each of the ways leads to two lines. -/
theorem two_lines_of_secondHead (h : SecondHead env srv) :
    2 ≤ lines (srv.serve env) := by
  cases h with
  | @rejected e s₁ hgate htwice =>
      rw [serve_of_rejected env hpipeline hgate, lines_answerError]
      have hcount := (answerTwice_iff env _ _ _).mp htwice
      unfold pageFor at hcount
      omega
  | relayed hstarts htwice => exact lines_of_twice env hpipeline hstarts htwice
  | @answered s₁ kind entry a time hstarts hthrows hsends =>
      by_cases htwice :
          HandlerTwice env kind entry s₁.response (s₁.time + 1)
      · exact lines_of_twice env hpipeline hstarts htwice
      · rw [lines_of_throws env hpipeline hstarts htwice hthrows]
        have hcount := (answerSends_iff env _ _ _).mp hsends
        rw [Bool.toNat_true]
        omega
  | @answeredTwice s₁ kind entry sent a time hstarts hthrows hanswer =>
      by_cases htwice :
          HandlerTwice env kind entry s₁.response (s₁.time + 1)
      · exact lines_of_twice env hpipeline hstarts htwice
      · rw [lines_of_throws env hpipeline hstarts htwice hthrows]
        have hcount := (answerTwice_iff env _ _ _).mp hanswer
        omega

/-- Where none of the ways is met, a handler that starts leads to one line
at most. -/
theorem one_line_of_starts (h : ¬ SecondHead env srv) {s₁ : Txn}
    {kind : HandlerKind} {entry : EndpointMethod}
    (hstarts : Starts env srv s₁ kind entry) :
    lines (srv.serve env) ≤ 1 := by
  have honce : ¬ HandlerTwice env kind entry s₁.response (s₁.time + 1) :=
    fun htwice => h (.relayed hstarts htwice)
  have hzero : lines s₁ = 0 := by
    have hgate := lines_gate env hpipeline
    rw [hstarts.passed] at hgate
    exact hgate
  by_cases hthrows : ∃ sent a time,
      HandlerThrows env kind entry s₁.response (s₁.time + 1) sent a time
  · obtain ⟨sent, a, time, hthrows⟩ := hthrows
    rw [lines_of_throws env hpipeline hstarts honce hthrows]
    -- Two lines are the handler's and the error page's, or both the error
    -- page's; sent tells which.
    by_contra hmore
    cases sent with
    | true =>
        refine h (.answered hstarts hthrows
          ((answerSends_iff env _ _ _).mpr ?_))
        rw [Bool.toNat_true] at hmore
        omega
    | false =>
        refine h (.answeredTwice hstarts hthrows
          ((answerTwice_iff env _ _ _).mpr ?_))
        rw [Bool.toNat_false] at hmore
        omega
  · have hcalm := handler_calm env (s := begun kind s₁) hstarts.routed
      (by rw [time_begun]; exact honce)
      (fun sent a time hthrows' => hthrows ⟨sent, a, time, by
        rw [time_begun] at hthrows'
        exact hthrows'⟩)
    have hfinish := finish_of_handler env hstarts.routed hstarts.handler
    rw [← hfinish] at hcalm
    rw [serve_of_calm env hpipeline hstarts.passed hcalm.1]
    have hle := hcalm.2
    rw [lines_begun, hzero] at hle
    exact hle

/-- Where none of the ways is met, there is one line at most. -/
theorem one_line_of_not_secondHead (h : ¬ SecondHead env srv) :
    lines (srv.serve env) ≤ 1 := by
  have hzero := lines_gate env hpipeline
  cases hgate : gateRun env srv with
  | mk result s₁ =>
      rw [hgate] at hzero
      cases result with
      -- A gate that throws is answered; one that waits writes nothing.
      | error stop =>
          by_cases hraised : ∃ e, stop = .raised e
          · obtain ⟨e, rfl⟩ := hraised
            rw [serve_of_rejected env hpipeline hgate, lines_answerError,
              show lines s₁ = 0 from hzero]
            by_contra hmore
            refine h (.rejected hgate ((answerTwice_iff env _ _ _).mpr ?_))
            unfold pageFor
            omega
          · rw [serve_of_stopped env hpipeline hgate
              fun e he => hraised ⟨e, he⟩, show lines s₁ = 0 from hzero]
            exact Nat.zero_le _
      | ok u =>
          obtain ⟨entry, hpassed⟩ := gate_ok env
            ((gateRun_eq env hpipeline).symm.trans hgate)
          cases hhandler : entry.handler with
          | none =>
              have hfinish : finish env s₁ = (.ok (), s₁) := by
                rw [finish_routed env hpassed.routed, hhandler]
              have hcalm : ∀ e, (finish env s₁).1 ≠ .error (.raised e) := by
                intro e he
                rw [hfinish] at he
                cases he
              rw [serve_of_calm env hpipeline hgate hcalm, hfinish,
                show lines s₁ = 0 from hzero]
              exact Nat.zero_le _
          | some kind =>
              exact one_line_of_starts env hpipeline h
                ⟨hgate, hpassed.routed, hhandler⟩

end Session

-- ============================================================ the theorem

/-- For every configuration that loads, every sequence of sessions and
every environment: the client gets at most one status line exactly if
none of the ways to a second one is met. -/
theorem one_head_iff {contentPath : Bytes} {serverConfig : XMLElement}
    {errorPages : AList fun _ : Code => Bytes} {srv : Server}
    (hload : initializeServer contentPath serverConfig errorPages = .ok srv)
    (envs : List Env) :
    lines ((srv.after envs).serve env) ≤ 1
      ↔ ¬ SecondHead env (srv.after envs) := by
  obtain ⟨before, after, hpipeline, -⟩ := initializeServer_gate hload
  have hlater := (grown_after hpipeline envs).1.trans hpipeline
  constructor
  · intro hone hsecond
    have htwo := two_lines_of_secondHead env hlater hsecond
    omega
  · exact one_line_of_not_secondHead env hlater

/-- A client that asks for a file of a length, with a socket that takes
every write whole. -/
def assetEnv (fileLen : Int) : Env where
  readData := bytes "GET /app.css HTTP/1.1\r\nHost: localhost\r\n\r\n"
  fileExists := fun _ => true
  file := fun _ _ =>
    { opens := true, fileLen := fileLen, content := bytes "a",
      reads := [.bytes 1] }
  socket := fun _ _ => [⟨.ok, 0⟩]
  globalLimit := { exchanges := [⟨true, 0⟩, ⟨false, 1⟩] }

/-- A file that can be sent is sent with one head. -/
theorem one_head_asset :
    ¬ SecondHead (assetEnv 1) (emptyServer.after []) :=
  (one_head_iff (assetEnv 1) initializeServer_empty []).mp
    (by decide +kernel)

/-- An empty file is announced with one head and refused with another:
GET has sent its own before it opens the file. -/
theorem two_heads_empty_asset :
    ¬ ∀ (contentPath : Bytes) (serverConfig : XMLElement)
      (errorPages : AList fun _ : Code => Bytes) (srv : Server),
      initializeServer contentPath serverConfig errorPages = .ok srv →
      ∀ env : Env, lines (srv.serve env) ≤ 1 := by
  intro hclaim
  have hone := hclaim [] (.mk [] [] []) ∅ emptyServer
    initializeServer_empty (assetEnv 0)
  have htwo : lines (emptyServer.serve (assetEnv 0)) = 2 := by
    decide +kernel
  omega

end CgiWebServer
