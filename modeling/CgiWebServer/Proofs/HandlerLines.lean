/-
How many status lines a handler gets through, and what it throws after.

For each handler the exceptions are listed by where they come from
(`FileThrows`, `HeadThrows`, `ScriptThrows`), each with whether the
handler's own status line has been taken by then, the response it is
answered with, and the time of the answer. A script whose first two reads
are relayed gets two lines through by itself (`TwoLines`); everything
else that throws nothing gets through one line at most (`Calm`).
-/
import CgiWebServer.Proofs.Frames
import CgiWebServer.Proofs.Routing
import CgiWebServer.Proofs.SentLines

namespace CgiWebServer

open Process

-- ============================================================ the endings

/-- The answer to an exception without headers of its own. -/
def plainAnswer (status : Code) : Response :=
  (HTTPException.mk' status [] ∅).response

/-- A run from `s` threw an exception that is answered with `a`, at a
time, with or without a status line sent. -/
def Raises (out : Except Stop Unit × Txn) (s : Txn) (sent : Bool)
    (a : Response) (time : Nat) : Prop :=
  ∃ e, out.1 = .error (.raised e) ∧ errorResponse e = a
    ∧ out.2.time = time ∧ lines out.2 = lines s + sent.toNat

/-- A run from `s` threw nothing and sent one status line at most. -/
def Calm (out : Except Stop Unit × Txn) (s : Txn) : Prop :=
  (∀ e, out.1 ≠ .error (.raised e)) ∧ lines out.2 ≤ lines s + 1

variable (env : Env)

/-- The transaction with another response: nothing else changes. -/
def withResponse (r : Response) (s : Txn) : Txn := { s with response := r }

@[simp] theorem time_withResponse (r : Response) (s : Txn) :
    (withResponse r s).time = s.time := rfl

/-- A handler starts one event later. -/
theorem time_begun (kind : HandlerKind) (s : Txn) :
    (begun kind s).time = s.time + 1 := time_emit _ s

@[simp] theorem lines_withResponse (r : Response) (s : Txn) :
    lines (withResponse r s) = lines s := rfl

/-- A head that is sent, as the run of `streamHead`. -/
theorem streamHead_withResponse (r : Response) (s : Txn) :
    streamHead env (withResponse r s)
      = (writeEndOf (writeAt env r s.time).result,
          afterHead env (withResponse r s)) :=
  streamHead_apply env _

/-- The count behind a head. -/
theorem lines_afterHead_withResponse (r : Response) (s : Txn) :
    lines (afterHead env (withResponse r s))
      = lines s + (decide (LineSent env r s.time)).toNat := by
  rw [lines_afterHead]
  by_cases h : LineSent env r s.time
  · rw [decide_eq_true h]
    exact congrArg _ (if_pos h)
  · rw [decide_eq_false h]
    exact congrArg _ (if_neg h)

/-- A head whose write fails raises. -/
theorem raises_of_writeFails {r : Response} {s s₀ : Txn} {e : Exn}
    (rest : Unit → Act Unit) (hlines : lines s₀ = lines s)
    (h : WriteFails env r s₀.time e) :
    Raises ((streamHead env >>= rest) (withResponse r s₀)) s
      (decide (LineSent env r s₀.time)) (errorResponse e)
      (s₀.time + 1) := by
  have hrun : streamHead env (withResponse r s₀)
      = (.error (.raised e), afterHead env (withResponse r s₀)) := by
    rw [streamHead_withResponse]
    exact congrArg (·, _) h
  rw [Proc.bind_of_error hrun]
  refine ⟨e, rfl, rfl, time_afterHead env _, ?_⟩
  rw [lines_afterHead_withResponse, hlines]

/-- A head whose write neither succeeds nor throws ends the run. -/
theorem stops_of_not_written {r : Response} {s₀ : Txn}
    (rest : Unit → Act Unit) (hwritten : ¬ Written env r s₀.time)
    (hfails : ∀ e, ¬ WriteFails env r s₀.time e) :
    (∀ e, ((streamHead env >>= rest) (withResponse r s₀)).1
        ≠ .error (.raised e))
      ∧ lines ((streamHead env >>= rest) (withResponse r s₀)).2
        = lines s₀ + (decide (LineSent env r s₀.time)).toNat := by
  have hrun := streamHead_withResponse env r s₀
  cases hend : writeEndOf (writeAt env r s₀.time).result with
  | ok u => exact absurd hend hwritten
  | error stop =>
      rw [hend] at hrun
      rw [Proc.bind_of_error hrun]
      refine ⟨fun e he => ?_, lines_afterHead_withResponse env r s₀⟩
      cases he
      exact hfails e hend

theorem calm_of_not_written {r : Response} {s s₀ : Txn}
    {rest : Unit → Act Unit} (hlines : lines s₀ = lines s)
    (hwritten : ¬ Written env r s₀.time)
    (hfails : ∀ e, ¬ WriteFails env r s₀.time e) :
    Calm ((streamHead env >>= rest) (withResponse r s₀)) s := by
  obtain ⟨hstops, hcount⟩ :=
    stops_of_not_written env rest hwritten hfails
  refine ⟨hstops, ?_⟩
  rw [hcount, hlines]
  exact Nat.add_le_add_left (Bool.toNat_le _) _

/-- A head that is written, with what follows. -/
theorem run_of_written {r : Response} {s₀ : Txn} {rest : Unit → Act Unit}
    (h : Written env r s₀.time) :
    (streamHead env >>= rest) (withResponse r s₀)
      = rest () (afterHead env (withResponse r s₀)) := by
  apply Proc.bind_of_ok
  rw [streamHead_withResponse]
  exact congrArg (·, _) h

/-- Its one line. -/
theorem lines_of_written {r : Response} {s₀ : Txn}
    (h : Written env r s₀.time) :
    lines (afterHead env (withResponse r s₀)) = lines s₀ + 1 := by
  rw [lines_afterHead_withResponse, decide_eq_true (Written.lineSent env h)]
  rfl

-- ============================================================== GET, file

section File

variable (entry : EndpointMethod) (r : Response) (t : Nat)

/-- What GET throws on a route without a script. -/
inductive FileThrows : Bool → Response → Nat → Prop
  | noType :
      determineContentType entry.resource = none →
      FileThrows false (plainAnswer .forbidden) t
  | headFails {c : Bytes} {e : Exn} :
      determineContentType entry.resource = some c →
      WriteFails env (fileResponse c r) t e →
      FileThrows (decide (LineSent env (fileResponse c r) t))
        (errorResponse e) (t + 1)
  | unopened {c : Bytes} {e : Exn} :
      determineContentType entry.resource = some c →
      Written env (fileResponse c r) t →
      openFile entry.resource (env.file (t + 1) (cStr entry.resource))
        = .error e →
      FileThrows true (errorResponse e) (t + 2)
  | breaks {c : Bytes} {e : Exn} {fileLen : Nat} :
      determineContentType entry.resource = some c →
      Written env (fileResponse c r) t →
      openFile entry.resource (env.file (t + 1) (cStr entry.resource))
        = .ok fileLen →
      (fileStream entry.resource
        (env.file (t + 1) (cStr entry.resource)) fileLen
        (env.socket (t + 2))).result = .threw e →
      FileThrows true (errorResponse e) (t + 3)

variable {entry r t}

/-- What GET does behind the head. -/
def sendFile (path : Bytes) : Act Unit := do
  let (opened, fileLen) ← openFileStreamer env .opened path
  modifyResponse (·.addHeader (bytes "Content-Type") (toStr fileLen))
  streamFile env path opened fileLen

theorem handleFile_of_type {c : Bytes} {s : Txn}
    (h : determineContentType entry.resource = some c) :
    GetHandler.handleFile env entry s
      = (streamHead env >>= fun _ => sendFile env entry.resource)
          (withResponse (fileResponse c s.response) s) := by
  unfold GetHandler.handleFile
  simp only [Proc.bind_apply, Proc.get_apply, h, modifyResponse,
    Proc.modify_apply]
  rfl

theorem handleFile_of_noType {s : Txn}
    (h : determineContentType entry.resource = none) :
    Raises (GetHandler.handleFile env entry s) s false
      (plainAnswer .forbidden) s.time := by
  unfold GetHandler.handleFile
  simp only [Proc.bind_apply, Proc.get_apply, h]
  exact ⟨_, rfl, rfl, rfl, rfl⟩

theorem sendFile_of_error {path : Bytes} {e : Exn} {s : Txn}
    (h : openFile path (env.file s.time (cStr path)) = .error e) :
    sendFile env path s
      = (.error (.raised e), emit (.opened (cStr path)) s) := by
  unfold sendFile
  rw [Proc.bind_apply, openFileStreamer_apply, h]

/-- A file that was opened is streamed: two events, neither of them a
head. -/
theorem sendFile_of_ok {path : Bytes} {fileLen : Nat} {s : Txn}
    (h : openFile path (env.file s.time (cStr path)) = .ok fileLen) :
    (sendFile env path s).1
        = streamEndOf (fileStream path (env.file s.time (cStr path)) fileLen
            (env.socket (s.time + 1))).result
      ∧ (sendFile env path s).2.time = s.time + 2
      ∧ lines (sendFile env path s).2 = lines s := by
  have hrun : sendFile env path s
      = streamFile env path (env.file s.time (cStr path)) fileLen
          (withResponse (s.response.addHeader (bytes "Content-Type")
            (toStr fileLen)) (emit (.opened (cStr path)) s)) := by
    unfold sendFile
    rw [Proc.bind_apply, openFileStreamer_apply, h]
    rfl
  rw [hrun, streamFile_apply, time_withResponse, time_emit]
  refine ⟨rfl, ?_, ?_⟩
  · rw [time_emit, time_withResponse, time_emit]
  · rw [lines_emit rfl, lines_withResponse, lines_emit rfl]

theorem file_throws {s : Txn} {sent : Bool} {a : Response} {time : Nat}
    (h : FileThrows env entry s.response s.time sent a time) :
    Raises (GetHandler.handleFile env entry s) s sent a time := by
  cases h with
  | noType htype => exact handleFile_of_noType env htype
  | headFails htype hfails =>
      rw [handleFile_of_type env htype]
      exact raises_of_writeFails env _ rfl hfails
  -- The head has been written: the throw comes one line too late.
  | @unopened c e htype hwritten hopen =>
      have hopen' : openFile entry.resource (env.file
          (afterHead env (withResponse (fileResponse c s.response) s)).time
          (cStr entry.resource)) = .error e := by
        rw [time_afterHead]
        exact hopen
      rw [handleFile_of_type env htype, run_of_written env hwritten,
        sendFile_of_error env hopen']
      refine ⟨e, rfl, rfl, ?_, ?_⟩
      · rw [time_emit, time_afterHead]
        rfl
      · rw [lines_emit rfl, lines_of_written env hwritten]
        rfl
  | @breaks c e fileLen htype hwritten hopen hstream =>
      have htime : (afterHead env
          (withResponse (fileResponse c s.response) s)).time = s.time + 1 :=
        time_afterHead env _
      obtain ⟨hend, hafter, hlines⟩ := sendFile_of_ok env
        (s := afterHead env (withResponse (fileResponse c s.response) s))
        (htime ▸ hopen)
      rw [handleFile_of_type env htype, run_of_written env hwritten]
      rw [htime] at hend hafter
      refine ⟨e, ?_, rfl, hafter, ?_⟩
      · rw [hend, hstream]
        rfl
      · rw [hlines, lines_of_written env hwritten]
        rfl

theorem file_calm {s : Txn}
    (h : ∀ sent a time,
      ¬ FileThrows env entry s.response s.time sent a time) :
    Calm (GetHandler.handleFile env entry s) s := by
  cases htype : determineContentType entry.resource with
  | none => exact absurd (.noType htype) (h _ _ _)
  | some c =>
      rw [handleFile_of_type env htype]
      -- The four causes of FileThrows in the order of the code; each is
      -- excluded by h.
      by_cases hwritten : Written env (fileResponse c s.response) s.time
      · rw [run_of_written env hwritten]
        have htime : (afterHead env (withResponse
            (fileResponse c s.response) s)).time = s.time + 1 :=
          time_afterHead env _
        cases hopen : openFile entry.resource
            (env.file (s.time + 1) (cStr entry.resource)) with
        | error e => exact absurd (.unopened htype hwritten hopen) (h _ _ _)
        | ok fileLen =>
            obtain ⟨hend, -, hlines⟩ := sendFile_of_ok env (s := afterHead env
              (withResponse (fileResponse c s.response) s)) (htime ▸ hopen)
            rw [htime] at hend
            refine ⟨fun e he => ?_, ?_⟩
            · rw [hend] at he
              cases hstream : (fileStream entry.resource
                  (env.file (s.time + 1) (cStr entry.resource)) fileLen
                  (env.socket (s.time + 2))).result with
              | threw e' =>
                  exact absurd (.breaks htype hwritten hopen hstream)
                    (h _ _ _)
              | returned n =>
                  rw [hstream] at he
                  cases he
              | pending =>
                  rw [hstream] at he
                  cases he
            · rw [hlines, lines_of_written env hwritten]
      · exact calm_of_not_written env rfl hwritten
          fun e hfails => h _ _ _ (.headFails htype hfails)

end File

-- ================================================================= HEAD

section Head

variable (entry : EndpointMethod) (r : Response) (t : Nat)

/-- HEAD cannot open the file, or finds it empty. -/
abbrev HeadUnopened : Prop :=
  (env.file t (cStr entry.resource)).opens = false
    ∨ (env.file t (cStr entry.resource)).fileLen ≤ 0

/-- What HEAD answers with, of a file of a type. -/
abbrev headOf (c : Bytes) : Response :=
  headResponse c (env.file t (cStr entry.resource)).fileLen r

/-- What HEAD throws on a route without a script. -/
inductive HeadThrows : Bool → Response → Nat → Prop
  | unopened :
      HeadUnopened env entry t →
      HeadThrows false (plainAnswer .notFound) (t + 1)
  | noType :
      ¬ HeadUnopened env entry t →
      determineContentType entry.resource = none →
      HeadThrows false (plainAnswer .forbidden) (t + 1)
  | headFails {c : Bytes} {e : Exn} :
      ¬ HeadUnopened env entry t →
      determineContentType entry.resource = some c →
      WriteFails env (headOf env entry r t c) (t + 1) e →
      HeadThrows (decide (LineSent env (headOf env entry r t c) (t + 1)))
        (errorResponse e) (t + 2)

variable {entry r t}

/-- What HEAD does on a route without a script. -/
def headFile (entry : EndpointMethod) : Act Unit :=
  HeadHandler.buildResponse env entry >>= fun _ => streamHead env

/-- HEAD up to its head, of a file of a type. -/
theorem headFile_of_type {c : Bytes} {s : Txn}
    (hrouted : Routed s.request s.router entry)
    (hopen : ¬ HeadUnopened env entry s.time)
    (htype : determineContentType entry.resource = some c) :
    headFile env entry s
      = (streamHead env >>= pure) (withResponse
          (headOf env entry s.response s.time c)
          (emit (.opened (cStr entry.resource)) s)) := by
  have hrun := buildResponse_routed env hrouted
  rw [if_neg hopen, htype] at hrun
  unfold headFile
  rw [Proc.bind_of_ok hrun, Proc.bind_apply, streamHead_withResponse]
  show streamHead env (withResponse _ _) = _
  rw [streamHead_withResponse]
  cases writeEndOf (writeAt env _
      (emit (.opened (cStr entry.resource)) s).time).result with
  | ok u => rfl
  | error stop => rfl

theorem head_throws {s : Txn} (hrouted : Routed s.request s.router entry)
    {sent : Bool} {a : Response} {time : Nat}
    (h : HeadThrows env entry s.response s.time sent a time) :
    Raises (headFile env entry s) s sent a time := by
  have hrun := buildResponse_routed env hrouted
  cases h with
  | unopened hopen =>
      rw [if_pos hopen] at hrun
      unfold headFile
      rw [Proc.bind_of_error hrun]
      exact ⟨_, rfl, rfl, time_emit _ s, lines_emit rfl s⟩
  | noType hopen htype =>
      rw [if_neg hopen, htype] at hrun
      unfold headFile
      rw [Proc.bind_of_error hrun]
      exact ⟨_, rfl, rfl, time_emit _ s, lines_emit rfl s⟩
  | headFails hopen htype hfails =>
      rw [headFile_of_type env hrouted hopen htype]
      have htime := time_emit (.opened (cStr entry.resource)) s
      have hraises := raises_of_writeFails env pure
        (lines_emit (e := .opened (cStr entry.resource)) rfl s)
        (htime ▸ hfails)
      rw [htime] at hraises
      exact hraises

theorem head_calm {s : Txn} (hrouted : Routed s.request s.router entry)
    (h : ∀ sent a time,
      ¬ HeadThrows env entry s.response s.time sent a time) :
    Calm (headFile env entry s) s := by
  by_cases hopen : HeadUnopened env entry s.time
  · exact absurd (.unopened hopen) (h _ _ _)
  · cases htype : determineContentType entry.resource with
    | none => exact absurd (.noType hopen htype) (h _ _ _)
    | some c =>
        rw [headFile_of_type env hrouted hopen htype]
        have htime := time_emit (.opened (cStr entry.resource)) s
        have hlines := lines_emit (e := .opened (cStr entry.resource)) rfl s
        by_cases hwritten : Written env
            (headOf env entry s.response s.time c)
            (emit (.opened (cStr entry.resource)) s).time
        · rw [run_of_written env hwritten]
          refine ⟨fun e he => ?_, ?_⟩
          · cases he
          show lines (afterHead env _) ≤ _
          rw [lines_of_written env hwritten, hlines]
        · refine calm_of_not_written env hlines hwritten fun e hfails => ?_
          rw [htime] at hfails
          exact h _ _ _ (.headFails hopen htype hfails)

end Head

-- =============================================================== scripts

section Script

variable (r : Response) (t : Nat)

/-- The script's first read is a chunk that is relayed whole, leaving a
response and further reads. -/
def FirstRelayed (sent : Response) (rest : List ScriptRead) : Prop :=
  ∃ data body headers, env.script.fails = none
    ∧ env.script.reads = .chunk data :: rest
    ∧ relayParse data = .ok (body, headers)
    ∧ Written env (relayResponse data body headers r) (t + 1)
    ∧ sent = (relayResponse data body headers r).build (env.date (t + 1))

/-- The second read is relayed too, and its status line taken. -/
def TwoLines : Prop :=
  ∃ sent data rest body headers,
    FirstRelayed env r t sent (.chunk data :: rest)
      ∧ relayParse data = .ok (body, headers)
      ∧ LineSent env (relayResponse data body headers sent) (t + 2)

/-- What the relaying of a script throws before it has sent a second
status line. -/
inductive ScriptThrows : Bool → Response → Nat → Prop
  | unspawned {step : SpawnStep} :
      env.script.fails = some step →
      ScriptThrows false (plainAnswer .internalServerError)
        (if step = .write then t + 1 else t)
  | unread {rest : List ScriptRead} :
      env.script.fails = none → env.script.reads = .error :: rest →
      ScriptThrows false (plainAnswer .internalServerError) (t + 1)
  | unparsed {data : Bytes} {rest : List ScriptRead} {e : Exn} :
      env.script.fails = none →
      env.script.reads = .chunk data :: rest →
      relayParse data = .error e →
      ScriptThrows false (errorResponse e) (t + 1)
  | headFails {data body : Bytes} {headers : Headers}
      {rest : List ScriptRead} {e : Exn} :
      env.script.fails = none →
      env.script.reads = .chunk data :: rest →
      relayParse data = .ok (body, headers) →
      WriteFails env (relayResponse data body headers r) (t + 1) e →
      ScriptThrows (decide (LineSent env
        (relayResponse data body headers r) (t + 1))) (errorResponse e)
        (t + 2)
  | thenUnread {sent : Response} {rest : List ScriptRead} :
      FirstRelayed env r t sent (.error :: rest) →
      ScriptThrows true (plainAnswer .internalServerError) (t + 2)
  | thenUnparsed {sent : Response} {data : Bytes} {rest : List ScriptRead}
      {e : Exn} :
      FirstRelayed env r t sent (.chunk data :: rest) →
      relayParse data = .error e →
      ScriptThrows true (errorResponse e) (t + 2)
  | thenHeadFails {sent : Response} {data body : Bytes}
      {headers : Headers} {rest : List ScriptRead} {e : Exn} :
      FirstRelayed env r t sent (.chunk data :: rest) →
      relayParse data = .ok (body, headers) →
      WriteFails env (relayResponse data body headers sent) (t + 2) e →
      ScriptThrows true (errorResponse e) (t + 3)

variable {r t}

/-- A chunk that parses is sent as a head, and the loop goes on. -/
theorem relayLoop_of_ok {script data body : Bytes} {headers : Headers}
    {rest : List ScriptRead} {s₀ : Txn}
    (h : relayParse data = .ok (body, headers)) :
    relayLoop env script (.chunk data :: rest) s₀
      = (streamHead env >>= fun _ => relayLoop env script rest)
          (withResponse (relayResponse data body headers s₀.response) s₀) := by
  unfold relayLoop
  rw [scriptLoop_chunk, Proc.bind_apply, relayChunk_of_ok env h,
    Proc.bind_apply, streamHead_apply]
  rfl

/-- A chunk that does not parse throws. -/
theorem relayLoop_of_error (script : Bytes) (rest : List ScriptRead)
    (s₀ : Txn) {data : Bytes} {e : Exn} (h : relayParse data = .error e) :
    ∃ r', relayLoop env script (.chunk data :: rest) s₀
      = (.error (.raised e), withResponse r' s₀) := by
  obtain ⟨r', hrun⟩ := relayChunk_of_error env h s₀
  exact ⟨r', Proc.bind_of_error hrun⟩

/-- The relaying behind a first chunk that is relayed whole. -/
theorem relayScript_of_firstRelayed {script : Bytes} {s : Txn}
    {sent : Response} {rest : List ScriptRead}
    (h : FirstRelayed env s.response s.time sent rest) :
    ∃ s₁, relayScript env script s = relayLoop env script rest s₁
      ∧ s₁.response = sent ∧ s₁.time = s.time + 2
      ∧ lines s₁ = lines s + 1 := by
  obtain ⟨data, body, headers, hfails, hreads, hparse, hwritten, rfl⟩ := h
  have htime : (spawnedTxn script s).time = s.time + 1 := time_emit _ s
  have hlines : lines (spawnedTxn script s) = lines s := lines_emit rfl s
  have hwritten' : Written env (relayResponse data body headers
      (spawnedTxn script s).response) (spawnedTxn script s).time := by
    rw [htime]
    exact hwritten
  refine ⟨afterHead env (withResponse (relayResponse data body headers
    s.response) (spawnedTxn script s)), ?_, ?_, ?_, ?_⟩
  · rw [relayScript_of_none env hfails, hreads,
      relayLoop_of_ok env hparse]
    exact run_of_written env hwritten'
  · rw [response_afterHead, time_withResponse, htime]
    rfl
  · rw [time_afterHead, time_withResponse, htime]
  · exact (lines_of_written env hwritten').trans (by rw [hlines])

theorem script_throws {script : Bytes} {s : Txn} {sent : Bool}
    {a : Response} {time : Nat}
    (honce : ¬ TwoLines env s.response s.time)
    (h : ScriptThrows env s.response s.time sent a time) :
    Raises (relayScript env script s) s sent a time := by
  have htime : (spawnedTxn script s).time = s.time + 1 := time_emit _ s
  have hlines : lines (spawnedTxn script s) = lines s := lines_emit rfl s
  -- The script does not start, or its first read fails, or its second.
  cases h with
  | @unspawned step hfails =>
      show Raises (streamScript env script s.request.args _ s) s _ _ _
      unfold streamScript
      rw [Proc.bind_apply]
      unfold spawn
      rw [hfails]
      cases step with
      | write => exact ⟨_, rfl, rfl, time_emit _ s, lines_emit rfl s⟩
      | pipes => exact ⟨_, rfl, rfl, rfl, rfl⟩
      | addDup2 => exact ⟨_, rfl, rfl, rfl, rfl⟩
      | addClose => exact ⟨_, rfl, rfl, rfl, rfl⟩
      | spawn => exact ⟨_, rfl, rfl, rfl, rfl⟩
  | unread hfails hreads =>
      rw [relayScript_of_none env hfails, hreads]
      exact ⟨_, rfl, rfl, htime, hlines⟩
  | @unparsed data rest e hfails hreads hparse =>
      rw [relayScript_of_none env hfails, hreads]
      obtain ⟨r', hrun⟩ := relayLoop_of_error env script rest
        (spawnedTxn script s) hparse
      rw [hrun]
      exact ⟨e, rfl, rfl, htime, hlines⟩
  | @headFails data body headers rest e hfails hreads hparse hwrite =>
      rw [relayScript_of_none env hfails, hreads,
        relayLoop_of_ok env hparse]
      have hwrite' : WriteFails env _ (spawnedTxn script s).time _ :=
        htime ▸ hwrite
      have hraises := raises_of_writeFails env
        (fun _ => relayLoop env script rest) hlines hwrite'
      rw [htime] at hraises
      exact hraises
  | thenUnread hfirst =>
      obtain ⟨s₁, hrun, -, htime₁, hlines₁⟩ :=
        relayScript_of_firstRelayed env hfirst
      rw [hrun]
      exact ⟨_, rfl, rfl, htime₁, hlines₁⟩
  | thenUnparsed hfirst hparse =>
      obtain ⟨s₁, hrun, -, htime₁, hlines₁⟩ :=
        relayScript_of_firstRelayed env hfirst
      obtain ⟨r', hrun'⟩ := relayLoop_of_error env script _ s₁ hparse
      rw [hrun, hrun']
      exact ⟨_, rfl, rfl, htime₁, hlines₁⟩
  | @thenHeadFails _ data body headers rest e hfirst hparse hwrite =>
      obtain ⟨s₁, hrun, hresponse, htime₁, hlines₁⟩ :=
        relayScript_of_firstRelayed env hfirst
      -- This head is not sent: with the first it would be two.
      have hnot : ¬ LineSent env _ s₁.time :=
        fun hline => honce ⟨_, _, _, _, _, hfirst, hparse, htime₁ ▸ hline⟩
      have hwrite' : WriteFails env _ s₁.time _ := htime₁ ▸ hwrite
      obtain ⟨e, hthrew, hanswer, hafter, hcount⟩ :=
        raises_of_writeFails env (fun _ => relayLoop env script rest)
          (s := s₁) rfl hwrite'
      rw [hrun, relayLoop_of_ok env hparse, hresponse]
      refine ⟨e, hthrew, hanswer, hafter.trans (by rw [htime₁]), ?_⟩
      rw [hcount, decide_eq_false hnot, hlines₁]
      rfl

/-- What a loop over the reads does not throw, before a first line is
sent or behind it. -/
theorem relayLoop_stops (script : Bytes) (reads : List ScriptRead)
    (s₀ : Txn)
    (herror : ∀ rest, reads ≠ .error :: rest)
    (hparse : ∀ data rest e, reads = .chunk data :: rest →
      relayParse data ≠ .error e)
    (hwrite : ∀ data rest body headers, reads = .chunk data :: rest →
      relayParse data = .ok (body, headers) →
        ¬ Written env (relayResponse data body headers s₀.response) s₀.time
          ∧ ∀ e, ¬ WriteFails env
            (relayResponse data body headers s₀.response) s₀.time e) :
    (∀ e, (relayLoop env script reads s₀).1 ≠ .error (.raised e))
      ∧ ∃ sent : Bool, lines (relayLoop env script reads s₀).2
          = lines s₀ + sent.toNat
        ∧ (sent = true → ∃ data rest body headers,
            reads = .chunk data :: rest
              ∧ relayParse data = .ok (body, headers)
              ∧ LineSent env (relayResponse data body headers s₀.response)
                s₀.time) := by
  cases reads with
  | nil => exact ⟨fun e he => (by cases he), false, rfl, fun h => by cases h⟩
  | cons read rest =>
      cases read with
      | eof =>
          exact ⟨fun e he => (by cases he), false, rfl, fun h => by cases h⟩
      | error => exact absurd rfl (herror rest)
      -- Only a first chunk is left, and its head is either the line sent or
      -- none.
      | chunk data =>
          cases hdata : relayParse data with
          | error e => exact absurd hdata (hparse data rest e rfl)
          | ok parsed =>
              obtain ⟨body, headers⟩ := parsed
              obtain ⟨hwritten, hfails⟩ :=
                hwrite data rest body headers rfl hdata
              obtain ⟨hstops, hcount⟩ := stops_of_not_written env
                (fun _ => relayLoop env script rest) hwritten hfails
              rw [relayLoop_of_ok env hdata]
              exact ⟨hstops, _, hcount, fun hsent => ⟨data, rest, body,
                headers, rfl, hdata, of_decide_eq_true hsent⟩⟩

theorem script_calm {script : Bytes} {s : Txn}
    (honce : ¬ TwoLines env s.response s.time)
    (h : ∀ sent a time,
      ¬ ScriptThrows env s.response s.time sent a time) :
    Calm (relayScript env script s) s := by
  cases hfails : env.script.fails with
  | some step => exact absurd (.unspawned hfails) (h _ _ _)
  | none =>
      have htime : (spawnedTxn script s).time = s.time + 1 := time_emit _ s
      have hlines : lines (spawnedTxn script s) = lines s :=
        lines_emit rfl s
      by_cases hfirst : ∃ sent rest, FirstRelayed env s.response s.time
          sent rest
      · -- One line is sent, and what is read next sends no other.
        obtain ⟨sent, rest, hfirst⟩ := hfirst
        obtain ⟨s₁, hrun, rfl, htime₁, hlines₁⟩ :=
          relayScript_of_firstRelayed env hfirst
        obtain ⟨hstops, again, hcount, hagain⟩ :=
          relayLoop_stops env script rest s₁
            (fun rest' heq => h _ _ _ (.thenUnread (heq ▸ hfirst)))
            (fun data rest' e heq hparse =>
              h _ _ _ (.thenUnparsed (heq ▸ hfirst) hparse))
            (fun data rest' body headers heq hparse => by
              rw [htime₁]
              refine ⟨fun hwritten => honce ?_, fun e hfails' => ?_⟩
              · exact ⟨_, data, rest', body, headers, heq ▸ hfirst, hparse,
                  Written.lineSent env hwritten⟩
              · exact h _ _ _
                  (.thenHeadFails (heq ▸ hfirst) hparse hfails'))
        rw [hrun]
        refine ⟨hstops, ?_⟩
        cases again with
        | false => exact (hcount.trans hlines₁).le
        | true =>
            obtain ⟨data, rest', body, headers, heq, hparse, hline⟩ :=
              hagain rfl
            rw [htime₁] at hline
            exact absurd ⟨_, data, rest', body, headers, heq ▸ hfirst,
              hparse, hline⟩ honce
      · rw [relayScript_of_none env hfails]
        obtain ⟨hstops, again, hcount, -⟩ := relayLoop_stops env
          script env.script.reads (spawnedTxn script s)
          (fun rest heq => h _ _ _ (.unread hfails heq))
          (fun data rest e heq hparse =>
            h _ _ _ (.unparsed hfails heq hparse))
          (fun data rest body headers heq hparse => by
            rw [htime]
            refine ⟨fun hwritten => hfirst ?_, fun e hfails' => ?_⟩
            · exact ⟨_, rest, data, body, headers, hfails, heq, hparse,
                hwritten, rfl⟩
            · exact h _ _ _ (.headFails hfails heq hparse hfails'))
        refine ⟨hstops, ?_⟩
        rw [hcount, hlines]
        exact Nat.add_le_add_left (Bool.toNat_le _) _

/-- Whatever runs, no line is taken back. -/
theorem lines_mono {P : Event → Prop} {s s' : Txn} (h : Emits P s s') :
    lines s ≤ lines s' := by
  obtain ⟨-, -, events, htrace, -⟩ := h
  unfold lines
  rw [htrace, List.countP_append]
  exact Nat.le_add_right _ _

theorem script_twice {script : Bytes} {s : Txn}
    (h : TwoLines env s.response s.time) :
    lines s + 2 ≤ lines (relayScript env script s).2 := by
  obtain ⟨sent, data, rest, body, headers, hfirst, hparse, hline⟩ := h
  obtain ⟨s₁, hrun, rfl, htime₁, hlines₁⟩ :=
    relayScript_of_firstRelayed env hfirst
  rw [hrun, relayLoop_of_ok env hparse]
  have hrest : Only (fun _ => True) (relayLoop env script rest) :=
    only_scriptLoop env (fun _ _ => True.intro) script true rest
  have hhead := lines_afterHead_withResponse env
    (relayResponse data body headers s₁.response) s₁
  rw [htime₁, decide_eq_true hline, hlines₁] at hhead
  rw [Proc.bind_apply, streamHead_withResponse]
  cases writeEndOf (writeAt env (relayResponse data body headers
      s₁.response) s₁.time).result with
  | error stop => exact hhead.ge
  | ok u => exact hhead.ge.trans (lines_mono (hrest _).1)

end Script

-- =============================================================== handlers

section Handlers

variable (kind : HandlerKind) (entry : EndpointMethod) (r : Response)
  (t : Nat)

/-- What a handler throws, by its class and whether the route has a
script, before a second status line. -/
def HandlerThrows (sent : Bool) (a : Response) (time : Nat) : Prop :=
  match kind, entry.hasScript with
  | .get, false => FileThrows env entry r t sent a time
  | .get, true => ScriptThrows env r t sent a time
  | .post, true => ScriptThrows env r t sent a time
  | .head, false => HeadThrows env entry r t sent a time
  | .post, false | .head, true =>
      sent = false ∧ a = plainAnswer .serviceUnavailable ∧ time = t
  | .options, _ => False

/-- A handler gets two status lines through by itself. -/
def HandlerTwice : Prop :=
  entry.hasScript = true ∧ (kind = .get ∨ kind = .post)
    ∧ TwoLines env r t

variable {kind entry r t}

theorem handler_throws {s : Txn} (hrouted : Routed s.request s.router entry)
    (honce : ¬ HandlerTwice env kind entry s.response s.time)
    {sent : Bool} {a : Response} {time : Nat}
    (h : HandlerThrows env kind entry s.response s.time sent a time) :
    Raises (kind.run env s) s sent a time := by
  -- GET and POST relay a script where the route has one.
  cases kind with
  | get =>
      rw [show HandlerKind.get.run env s = _ from
        getHandler_routed env hrouted]
      cases hscript : entry.hasScript with
      | false =>
          simp only [HandlerThrows, hscript] at h
          exact file_throws env h
      | true =>
          simp only [HandlerThrows, hscript] at h
          exact script_throws env
            (fun htwo => honce ⟨hscript, Or.inl rfl, htwo⟩) h
  | post =>
      rw [show HandlerKind.post.run env s = _ from
        postHandler_routed env hrouted]
      cases hscript : entry.hasScript with
      | false =>
          simp only [HandlerThrows, hscript] at h
          obtain ⟨rfl, rfl, rfl⟩ := h
          exact ⟨_, rfl, rfl, rfl, rfl⟩
      | true =>
          simp only [HandlerThrows, hscript] at h
          exact script_throws env
            (fun htwo => honce ⟨hscript, Or.inr rfl, htwo⟩) h
  | head =>
      rw [show HandlerKind.head.run env s = _ from
        headHandler_routed env hrouted]
      cases hscript : entry.hasScript with
      | false =>
          simp only [HandlerThrows, hscript] at h
          exact head_throws env hrouted h
      | true =>
          simp only [HandlerThrows, hscript] at h
          obtain ⟨rfl, rfl, rfl⟩ := h
          exact ⟨_, rfl, rfl, rfl, rfl⟩
  | options => exact absurd h (fun hfalse => hfalse)

theorem handler_calm {s : Txn} (hrouted : Routed s.request s.router entry)
    (honce : ¬ HandlerTwice env kind entry s.response s.time)
    (h : ∀ sent a time,
      ¬ HandlerThrows env kind entry s.response s.time sent a time) :
    Calm (kind.run env s) s := by
  cases kind with
  | get =>
      rw [show HandlerKind.get.run env s = _ from
        getHandler_routed env hrouted]
      cases hscript : entry.hasScript with
      | false =>
          simp only [HandlerThrows, hscript] at h
          exact file_calm env h
      | true =>
          simp only [HandlerThrows, hscript] at h
          exact script_calm env
            (fun htwo => honce ⟨hscript, Or.inl rfl, htwo⟩) h
  | post =>
      rw [show HandlerKind.post.run env s = _ from
        postHandler_routed env hrouted]
      cases hscript : entry.hasScript with
      | false =>
          simp only [HandlerThrows, hscript] at h
          exact absurd ⟨rfl, rfl, rfl⟩ (h _ _ _)
      | true =>
          simp only [HandlerThrows, hscript] at h
          exact script_calm env
            (fun htwo => honce ⟨hscript, Or.inr rfl, htwo⟩) h
  | head =>
      rw [show HandlerKind.head.run env s = _ from
        headHandler_routed env hrouted]
      cases hscript : entry.hasScript with
      | false =>
          simp only [HandlerThrows, hscript] at h
          exact head_calm env hrouted h
      | true =>
          simp only [HandlerThrows, hscript] at h
          exact absurd ⟨rfl, rfl, rfl⟩ (h _ _ _)
  | options =>
      obtain ⟨ep, hrun⟩ := optionsHandler_routed env hrouted
      rw [show HandlerKind.options.run env s = _ from hrun]
      -- OPTIONS writes once and does not look at the result.
      refine ⟨fun e he => ?_, ?_⟩
      · simp only at he
        split at he
        next => cases he
        next => cases he
      · rw [lines_append]
        split
        next => exact Nat.le_refl _
        next => exact Nat.le_succ _

theorem handler_twice {s : Txn} (hrouted : Routed s.request s.router entry)
    (h : HandlerTwice env kind entry s.response s.time) :
    lines s + 2 ≤ lines (kind.run env s).2 := by
  obtain ⟨hscript, hkind, htwo⟩ := h
  have hhead : kind ≠ .head := by
    rcases hkind with rfl | rfl <;> decide
  have hoptions : kind ≠ .options := by
    rcases hkind with rfl | rfl <;> decide
  rw [run_script env hrouted hscript hhead hoptions]
  exact script_twice env htwo

end Handlers

end CgiWebServer
