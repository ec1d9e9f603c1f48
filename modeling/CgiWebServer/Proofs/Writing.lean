/-
What the writing steps do to a transaction, as equations.

A head is built from the response and the date, given to `co_write_all`,
and recorded with what the socket accepted. `afterHead` is the
transaction behind it, whatever the write reports; what the write
reports decides only how the step ends. A relayed chunk is parsed first
(`relayParse`): it either ends with an exception that leaves no event, or
sends the head of the merged response.
-/
import CgiWebServer.Pipeline

namespace CgiWebServer

open Process

variable (env : Env)

-- ================================================================ heads

/-- The response as it is sent. -/
def built (txn : Txn) : Response := txn.response.build (env.date txn.time)

/-- The write of the built response. -/
def headRun (txn : Txn) : WriteRun :=
  coWriteAll (built env txn).serialise (env.socket txn.time 0)

/-- The transaction behind the write. -/
def afterHead (txn : Txn) : Txn :=
  { txn with
    response := built env txn
    trace := txn.trace ++ [.head (built env txn) (headRun env txn).accepted] }

@[simp] theorem afterHead_request (txn : Txn) :
    (afterHead env txn).request = txn.request := rfl

@[simp] theorem afterHead_router (txn : Txn) :
    (afterHead env txn).router = txn.router := rfl

/-- What a write's report means to the code behind it. -/
def writeEndOf : Option WriteStatus → Except Stop Unit
  | none => .error .pending
  | some result =>
      if isSuccessCode result.status then .ok ()
      else .error (.raised (writeFailed result.status))

theorem sendHead_apply (txn : Txn) :
    sendHead env txn
      = (match (headRun env txn).result with
          | none => .error .pending
          | some result => .ok result, afterHead env txn) := by
  unfold sendHead coWrite modifyResponse record
  simp only [Proc.bind_apply, Proc.get_apply, Proc.modify_apply]
  show (match (headRun env txn).result with
    | none => Proc.raise Stop.pending
    | some result => pure result) (afterHead env txn) = _
  cases (headRun env txn).result with
  | none => rfl
  | some result => rfl

theorem streamHead_apply (txn : Txn) :
    streamHead env txn
      = (writeEndOf (headRun env txn).result, afterHead env txn) := by
  unfold streamHead
  rw [Proc.bind_apply, sendHead_apply]
  cases (headRun env txn).result with
  | none => rfl
  | some result =>
      simp only [requireSuccess, writeEndOf]
      split
      · rfl
      · rfl

/-- The default page ends well once its write has returned. -/
theorem defaultErrorPage_apply (txn : Txn) :
    defaultErrorPage env txn
      = (if (headRun env txn).result = none then .error .pending
          else .ok (), afterHead env txn) := by
  unfold defaultErrorPage
  rw [Proc.bind_apply, sendHead_apply]
  cases (headRun env txn).result with
  | none => rfl
  | some result => rfl

-- ================================================================ files

/-- The transaction behind one more event. -/
def emit (e : Event) (txn : Txn) : Txn :=
  { txn with trace := txn.trace ++ [e] }

@[simp] theorem emit_response (e : Event) (txn : Txn) :
    (emit e txn).response = txn.response := rfl

@[simp] theorem emit_router (e : Event) (txn : Txn) :
    (emit e txn).router = txn.router := rfl

theorem openFileStreamer_apply (event : Bytes → Event) (path : Bytes)
    (txn : Txn) :
    openFileStreamer env event path txn
      = (match openFile path (env.file txn.time (cStr path)) with
          | .error e => .error (.raised e)
          | .ok fileLen => .ok (env.file txn.time (cStr path), fileLen),
        emit (event (cStr path)) txn) := by
  unfold openFileStreamer record emit
  simp only [Proc.bind_apply, Proc.get_apply, Proc.modify_apply, lift]
  cases openFile path (env.file txn.time (cStr path)) with
  | error e => rfl
  | ok fileLen => rfl

/-- What a stream's standing means to the code behind it. -/
def streamEndOf : StreamEnd → Except Stop Unit
  | .returned _ => .ok ()
  | .threw e => .error (.raised e)
  | .pending => .error .pending

theorem streamFile_apply (path : Bytes) (file : File) (fileLen : Nat)
    (txn : Txn) :
    streamFile env path file fileLen txn
      = (streamEndOf
          (fileStream path file fileLen (env.socket txn.time)).result,
        emit (.body
          (fileStream path file fileLen (env.socket txn.time)).accepted)
          txn) := by
  unfold streamFile record emit
  simp only [Proc.bind_apply, Proc.get_apply, Proc.modify_apply]
  cases (fileStream path file fileLen (env.socket txn.time)).result with
  | returned n => rfl
  | threw e => rfl
  | pending => rfl

-- ======================================================= relayed chunks

/-- What a chunk has to offer: its body and headers, or the exception its
relaying throws. -/
def relayParse (data : Bytes) : Except Exn (Bytes × Headers) :=
  if extractStatusCode data = .badRequest
      ∨ extractStatusCode data = .notAStatus then
    .error (.ofStatus .badGateway "Failed to parse response from script")
  else do
    let body ← extractBody data
    let headers ← extractHeaders data
    return (body, headers)

/-- The response a chunk is relayed with. -/
def relayResponse (data body : Bytes) (headers : Headers) (r : Response) :
    Response :=
  ({ r with
      statusMsg := extractHeaderLine data
      status := extractStatusCode data
      body := body }.addHeaders headers).addHeader
    (bytes "Connection") (bytes "close")

/-- The transaction right before the head of a relayed chunk. -/
def relayed (data body : Bytes) (headers : Headers) (txn : Txn) : Txn :=
  { txn with response := relayResponse data body headers txn.response }

/-- A chunk that parses is sent as the head of the merged response. -/
theorem relayChunk_of_ok {data body : Bytes} {headers : Headers}
    (hparse : relayParse data = .ok (body, headers)) (txn : Txn) :
    relayChunk env true data txn
      = (writeEndOf (headRun env (relayed data body headers txn)).result,
          afterHead env (relayed data body headers txn)) := by
  unfold relayParse at hparse
  split at hparse
  next => cases hparse
  next hstatus =>
    cases hbody : extractBody data with
    | error e =>
        rw [hbody] at hparse
        cases hparse
    | ok b =>
        cases hheaders : extractHeaders data with
        | error e =>
            rw [hbody, hheaders] at hparse
            cases hparse
        | ok h =>
            rw [hbody, hheaders] at hparse
            cases hparse
            unfold relayChunk
            simp only [Bool.not_true, Bool.false_eq_true, if_false,
              Proc.bind_apply, modifyResponse, Proc.modify_apply,
              if_neg hstatus, lift, hbody, hheaders, Proc.ofExcept_ok]
            exact streamHead_apply env _

/-- A chunk that does not parse throws and leaves no event. -/
theorem relayChunk_of_error {data : Bytes} {e : Exn}
    (hparse : relayParse data = .error e) (txn : Txn) :
    ∃ r, relayChunk env true data txn
      = (.error (.raised e), { txn with response := r }) := by
  -- The head is read piece by piece into the stored response, which keeps
  -- what had been read when a step fails.
  unfold relayParse at hparse
  unfold relayChunk
  simp only [Bool.not_true, Bool.false_eq_true, if_false, Proc.bind_apply,
    modifyResponse, Proc.modify_apply]
  split at hparse
  next hstatus =>
    cases hparse
    rw [if_pos hstatus]
    exact ⟨_, rfl⟩
  next hstatus =>
    rw [if_neg hstatus]
    cases hbody : extractBody data with
    | error e' =>
        rw [hbody] at hparse
        cases hparse
        simp only [Proc.bind_apply, lift, Proc.ofExcept_error]
        exact ⟨_, rfl⟩
    | ok b =>
        cases hheaders : extractHeaders data with
        | ok h =>
            rw [hbody, hheaders] at hparse
            cases hparse
        | error e' =>
            rw [hbody, hheaders] at hparse
            cases hparse
            simp only [Proc.bind_apply, lift, Proc.ofExcept_ok,
              Proc.modify_apply, Proc.ofExcept_error]
            exact ⟨_, rfl⟩

/-- A chunk is relayed before the next read. -/
theorem scriptLoop_chunk (script : Bytes) (callback : Bytes → Act Unit)
    (data : Bytes) (rest : List ScriptRead) :
    scriptLoop env script (some callback) (.chunk data :: rest)
      = (callback data >>= fun _ =>
          scriptLoop env script (some callback) rest) := rfl

end CgiWebServer
