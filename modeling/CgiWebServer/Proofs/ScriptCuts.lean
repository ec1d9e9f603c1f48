/-
How the pipe cuts a script's output decides what the client gets.

# Why

Every chunk is parsed as if it were the first and the whole response. A
first read that ends in the status line, right behind the version,
offers no blank line, so `extract_body` throws its `Bad_Request`; the
same output in one read is relayed, or, if its status is one the
callback refuses, answered with `Bad_Gateway`. These two readings exist
for every well-formed output and never end alike.

# The two handlers

GET and POST find the script by different ways and then run the same
streamer, so what is shown of the streamer holds of both.
-/
import CgiWebServer.Proofs.Request
import CgiWebServer.Proofs.Writing

namespace CgiWebServer

open Process Scan

-- ============================================================== the text

/-- A response as a script means it. -/
structure ResponseText where
  version : Bytes
  code : Bytes
  reason : Bytes
  headers : List (Bytes × Bytes)
  body : Bytes
  version_ok : 32 ∉ version ∧ 13 ∉ version ∧ 10 ∉ version
  code_ok : code.length = 3 ∧ ∀ b ∈ code, isDigit b = true
  reason_ok : 13 ∉ reason ∧ 10 ∉ reason
  name_ok : ∀ h ∈ headers,
    13 ∉ h.1 ∧ 10 ∉ h.1 ∧ ¬ headerSplitter <:+: h.1
  value_ok : ∀ h ∈ headers, 13 ∉ h.2 ∧ 10 ∉ h.2

namespace ResponseText

/-- Version, code and reason, one space apart. -/
def statusLine (r : ResponseText) : Bytes :=
  r.version ++ (sp ++ (r.code ++ (sp ++ r.reason)))

/-- The serialised response. -/
def buffer (r : ResponseText) : Bytes :=
  r.statusLine ++ (crlf ++ (fieldsText r.headers ++ (crlf ++ r.body)))

/-- What stands behind the version and its space. -/
def afterVersion (r : ResponseText) : Bytes :=
  r.code ++ (sp ++ (r.reason
    ++ (crlf ++ (fieldsText r.headers ++ (crlf ++ r.body)))))

theorem buffer_eq (r : ResponseText) :
    (r.version ++ sp) ++ r.afterVersion = r.buffer := by
  simp only [buffer, statusLine, afterVersion, List.append_assoc]

theorem afterVersion_ne_nil (r : ResponseText) : r.afterVersion ≠ [] := by
  intro hnil
  have hcode := congrArg List.length hnil
  simp only [afterVersion, List.length_append, List.length_nil] at hcode
  have := r.code_ok.1
  omega

theorem statusLine_no_cr (r : ResponseText) :
    (13 : Byte) ∉ r.statusLine := by
  have hsp : (13 : Byte) ∉ sp := by decide
  have hcode : (13 : Byte) ∉ r.code := fun hmem =>
    absurd (r.code_ok.2 13 hmem) (by decide)
  simp only [statusLine, List.mem_append, not_or]
  exact ⟨r.version_ok.2.1, hsp, hcode, hsp, r.reason_ok.1⟩

end ResponseText

-- ============================================================= two cuts

/-- A way the reads can cut an output: non-empty chunks that make it up. -/
def IsCut (output : Bytes) (chunks : List Bytes) : Prop :=
  chunks.flatten = output ∧ ∀ c ∈ chunks, c ≠ []

/-- Behind the version, between the space and the code. -/
def versionCut (r : ResponseText) : List Bytes :=
  [r.version ++ sp, r.afterVersion]

theorem isCut_versionCut (r : ResponseText) :
    IsCut r.buffer (versionCut r) := by
  refine ⟨?_, fun c hc => ?_⟩
  · simp only [versionCut, List.flatten_cons, List.flatten_nil,
      List.append_nil]
    exact r.buffer_eq
  · simp only [versionCut, List.mem_cons, List.not_mem_nil, or_false] at hc
    rcases hc with rfl | rfl
    · simp [sp_eq]
    · exact r.afterVersion_ne_nil

theorem isCut_whole (r : ResponseText) : IsCut r.buffer [r.buffer] := by
  refine ⟨by simp, fun c hc => ?_⟩
  rw [List.mem_singleton.mp hc, ← r.buffer_eq]
  exact List.append_ne_nil_of_right_ne_nil _ r.afterVersion_ne_nil

/-- The version alone is no response: its relaying throws
`Bad_Request`. -/
theorem relayParse_version (r : ResponseText) :
    ∃ e, relayParse (r.version ++ sp) = .error e
      ∧ e.status = .badRequest := by
  have hspace : find sp (r.version ++ sp) = some r.version.length :=
    find_field (c := 32) (p := []) [] r.version_ok.1
  have hsecond : findFrom sp (r.version ++ sp) (r.version.length + 1)
      = none := by
    have hlen : r.version.length + 1 = (r.version ++ sp).length := by
      simp [sp_eq]
    have hnil := findFrom_append sp (r.version ++ sp) []
    rw [List.append_nil, ← hlen] at hnil
    rw [hnil]
    rfl
  have hstatus : extractStatusCode (r.version ++ sp) = .badGateway := by
    unfold extractStatusCode
    simp only [hspace, hsecond]
  -- Without a line end there is no blank line, and no body is found.
  have hcr : (13 : Byte) ∉ r.version ++ sp := by
    rw [List.mem_append, not_or]
    exact ⟨r.version_ok.2.1, by decide⟩
  have hlf : (10 : Byte) ∉ r.version ++ sp := by
    rw [List.mem_append, not_or]
    exact ⟨r.version_ok.2.2, by decide⟩
  have hblank : find crlfcrlf (r.version ++ sp) = none :=
    find_none_of_head hcr
  have hblank' : find (bytes "\n\n") (r.version ++ sp) = none :=
    find_none_of_head hlf
  refine ⟨.ofStatus .badRequest "Failed to extract body from buffer", ?_,
    rfl⟩
  unfold relayParse
  rw [hstatus, if_neg (by decide)]
  unfold extractBody
  rw [hblank, hblank']
  rfl

/-- The whole output is relayed, or refused with `Bad_Gateway`. -/
theorem relayParse_whole (r : ResponseText) :
    (∃ parsed, relayParse r.buffer = .ok parsed)
      ∨ ∃ e, relayParse r.buffer = .error e ∧ e.status = .badGateway := by
  have hok := readable_of_no_cr r.name_ok r.value_ok
  have hline := no_crlf r.statusLine_no_cr
  have hheaders := extractHeaders_text r.body hline hok
  have hblank := find_blank_line r.body hok hline
  have hbody : ∃ body, extractBody r.buffer = .ok body := by
    unfold extractBody ResponseText.buffer
    rw [hblank]
    exact ⟨_, rfl⟩
  obtain ⟨body, hbody⟩ := hbody
  unfold relayParse
  split
  next => exact Or.inr ⟨_, rfl, rfl⟩
  next =>
    left
    rw [hbody, show extractHeaders r.buffer = _ from hheaders]
    exact ⟨_, rfl⟩

-- ============================================================== the runs

/-- How a handler's run ends, to the code behind it. -/
inductive Ending
  | returned
  | threw (status : Code)
  | stopped
  deriving DecidableEq

/-- The ending of a result. -/
def endingOf : Except Stop Unit → Ending
  | .ok _ => .returned
  | .error (.raised e) => .threw e.status
  | .error _ => .stopped

/-- The bytes the socket has accepted. -/
def received (trace : List Event) : Bytes :=
  trace.flatMap fun
    | .head _ accepted => accepted
    | .body accepted => accepted
    | _ => []

/-- What a run of a handler comes to: the client's bytes and its
ending. -/
def outcome (run : Except Stop Unit × Txn) : Bytes × Ending :=
  (received run.2.trace, endingOf run.1)

/-- An environment in which the script's output is read in the given
chunks, every write succeeds, and the date stands still. -/
def cutEnv (env : Env) (date : Bytes) (chunks : List Bytes) : Env :=
  { env with
    script := { reads := chunks.map .chunk ++ [.eof] }
    socket := fun _ _ => [{ ec := .ok, n := 0 }]
    date := fun _ => date }

/-- A transaction whose request has found a route with a script. -/
def OnScript (txn : Txn) : Prop :=
  ∃ p ep r route, txn.request.endpoint = some p
    ∧ txn.router.deref p = some ep
    ∧ ep.methods.lookup txn.request.method = some route
    ∧ txn.request.route = some r ∧ txn.router.derefRoute r = some route
    ∧ route.hasScript = true

variable (env : Env) (date : Bytes) (txn : Txn)

/-- The transaction in which the reads begin. -/
def afterSpawn (script : Bytes) : Txn :=
  { txn with
    trace := txn.trace ++ [.spawned (cStr script) txn.request.args] }

/-- Both handlers run the same streamer on the script. -/
theorem handlers_stream (h : OnScript txn) (chunks : List Bytes) :
    ∃ script, ∀ a ∈ [GetHandler.handleScript, PostHandler.handle],
      a (cutEnv env date chunks) txn
        = scriptLoop (cutEnv env date chunks) script
            (some (relayChunk (cutEnv env date chunks) true))
            (chunks.map .chunk ++ [.eof]) (afterSpawn txn script) := by
  obtain ⟨p, ep, r, route, hp, hep, hentry, hr, hroute, hscript⟩ := h
  refine ⟨route.resource, fun a ha => ?_⟩
  simp only [List.mem_cons, List.not_mem_nil, or_false] at ha
  rcases ha with rfl | rfl
  · unfold GetHandler.handleScript
    simp only [Proc.bind_apply, Proc.get_apply, hp, Option.bind_some, hep,
      derefPtr, Proc.pure_apply, Endpoint.getResource, Endpoint.field,
      hentry, lift, Proc.ofExcept_ok]
    rfl
  · unfold PostHandler.handle
    simp only [Proc.bind_apply, Proc.get_apply, hp, hr, hroute, derefPtr,
      Proc.pure_apply, hscript, if_true]
    rfl

/-- A first chunk that does not parse ends the run with its exception. -/
theorem ending_of_error (script : Bytes) {data : Bytes}
    {rest : List ScriptRead} {e : Exn} (he : relayParse data = .error e) :
    endingOf (scriptLoop env script (some (relayChunk env true))
      (.chunk data :: rest) txn).1 = .threw e.status := by
  obtain ⟨r, hrun⟩ := relayChunk_of_error env he txn
  rw [scriptLoop_chunk, Proc.bind_of_error hrun]
  rfl

/-- One chunk that parses, and the end of the output, return. -/
theorem ending_of_ok (script : Bytes) {data : Bytes}
    {parsed : Bytes × Headers} (chunks : List Bytes)
    (hparse : relayParse data = .ok parsed) :
    endingOf (scriptLoop (cutEnv env date chunks) script
      (some (relayChunk (cutEnv env date chunks) true))
      [.chunk data, .eof] txn).1 = .returned := by
  have hrun := relayChunk_of_ok (cutEnv env date chunks) hparse txn
  have hwrite : (headRun (cutEnv env date chunks)
      (relayed data parsed.1 parsed.2 txn)).result
        = some { status := .ok, bytes :=
            (built (cutEnv env date chunks)
              (relayed data parsed.1 parsed.2 txn)).serialise.length } :=
    (coWriteAll_ok _).1
  rw [hwrite] at hrun
  rw [scriptLoop_chunk, Proc.bind_of_ok hrun]
  rfl

/-- No output is relayed alike however it is cut: for every well-formed
output, every script route and either handler, some two cuts end
differently. -/
theorem cuts_disagree (r : ResponseText) (h : OnScript txn) :
    ∀ a ∈ [GetHandler.handleScript, PostHandler.handle],
      ¬ ∀ cut cut', IsCut r.buffer cut → IsCut r.buffer cut' →
        outcome (a (cutEnv env date cut) txn)
          = outcome (a (cutEnv env date cut') txn) := by
  intro a ha hagree
  have hsame := congrArg Prod.snd
    (hagree _ _ (isCut_versionCut r) (isCut_whole r))
  obtain ⟨script, hstream⟩ := handlers_stream env date txn h (versionCut r)
  obtain ⟨script', hstream'⟩ := handlers_stream env date txn h [r.buffer]
  obtain ⟨e, he, hstatus⟩ := relayParse_version r
  have hcut : endingOf (a (cutEnv env date (versionCut r)) txn).1
      = .threw .badRequest := by
    rw [hstream a ha, ← hstatus]
    exact ending_of_error _ _ script he
  have hwhole : endingOf (a (cutEnv env date [r.buffer]) txn).1
      ≠ .threw .badRequest := by
    rw [hstream' a ha]
    rcases relayParse_whole r with ⟨parsed, hparse⟩ | ⟨e', he', hstatus'⟩
    · have hret := ending_of_ok env date (afterSpawn txn script') script'
        [r.buffer] hparse
      rw [show ([r.buffer].map ScriptRead.chunk ++ [ScriptRead.eof])
        = [.chunk r.buffer, .eof] from rfl, hret]
      exact fun heq => by cases heq
    · rw [show ([r.buffer].map ScriptRead.chunk ++ [ScriptRead.eof])
        = [.chunk r.buffer, .eof] from rfl,
        ending_of_error (cutEnv env date [r.buffer])
          (afterSpawn txn script') script' he', hstatus']
      decide
  exact hwhole (hsame.symm.trans hcut)

/-- A greeting, as a script may print it. -/
def greeting : ResponseText where
  version := bytes "HTTP/1.1"
  code := bytes "200"
  reason := bytes "OK"
  headers := [(bytes "Content-Type", bytes "text/plain")]
  body := bytes "hi"
  version_ok := by decide
  code_ok := ⟨rfl, List.all_eq_true.mp (by decide)⟩
  reason_ok := by decide
  name_ok := by decide
  value_ok := by decide

/-- The route of the greeting, and a request that has found it. -/
def greetingRoute : EndpointMethod :=
  { m := .get, accessRole := viewerRole, handler := some .get,
    resource := bytes "scripts/greet", hasScript := true }

def greetingTxn : Txn where
  request :=
    { method := .get
      endpoint := some (bytes "/greet")
      route := some { endpoint := bytes "/greet", method := .get } }
  router :=
    { endpoints := (∅ : AList fun _ : Bytes => Endpoint).insert
        (bytes "/greet") (({} : Endpoint).addMethod greetingRoute)
      errorPages := ∅ }

theorem onScript_greeting : OnScript greetingTxn :=
  ⟨bytes "/greet", ({} : Endpoint).addMethod greetingRoute,
    { endpoint := bytes "/greet", method := .get }, greetingRoute,
    rfl, rfl, rfl, rfl, rfl, rfl⟩

/-- The greeting's cuts disagree. -/
theorem cuts_disagree_greeting :
    ¬ ∀ cut cut', IsCut greeting.buffer cut → IsCut greeting.buffer cut' →
      outcome (GetHandler.handleScript (cutEnv {} [] cut) greetingTxn)
        = outcome (GetHandler.handleScript (cutEnv {} [] cut')
          greetingTxn) :=
  cuts_disagree {} [] greetingTxn greeting onScript_greeting _
    List.mem_cons_self

/-- The greeting in one read is relayed; cut behind its version it is
answered with an exception. -/
theorem greeting_cut_changes_outcome :
    ¬ ∀ (r : ResponseText) (env : Env) (date : Bytes) (txn : Txn),
      r.buffer.length ≤ bufferSize → OnScript txn →
      ∀ cut cut', IsCut r.buffer cut → IsCut r.buffer cut' →
        outcome (GetHandler.handleScript (cutEnv env date cut) txn)
          = outcome (GetHandler.handleScript (cutEnv env date cut') txn) := by
  intro hclaim
  have hagree := hclaim greeting {} [] greetingTxn (by decide)
    onScript_greeting _ _ (isCut_versionCut greeting) (isCut_whole greeting)
  have hcut : (outcome (GetHandler.handleScript
      (cutEnv {} [] (versionCut greeting)) greetingTxn)).2
        = .threw .badRequest := by decide
  have hwhole : (outcome (GetHandler.handleScript
      (cutEnv {} [] [greeting.buffer]) greetingTxn)).2 = .returned := by
    decide
  rw [hagree, hwhole] at hcut
  cases hcut

end CgiWebServer
