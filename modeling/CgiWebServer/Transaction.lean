/-
One connection's transaction: what it can change, what it leaves behind,
and what it finds outside the server.

Everything outside is in `Env`, which answers each use: the bytes read
from the client, the file system, the script, the clocks, the limiters'
shared words as this request meets them, the token library, and the
socket. An answer that may differ from one use to the next takes the
time of the use, the number of events so far. Nothing in `Env` is
chosen by the server, so what holds for every `Env` holds however the
rest of the machine behaves.

The events are the effects an observer can see. They are ghost: no
definition of the server reads them but for the time.
-/
import CgiWebServer.Lib.Process
import CgiWebServer.Net.Streamer
import CgiWebServer.Router

namespace CgiWebServer

open Process

-- ================================================================ state

/-- What happens: a handler starts, a token is minted, a file is opened
for a handler or for an error page, a script is spawned, a response head
or a file's bytes are written. The writes carry the bytes the socket
accepted. -/
inductive Event
  | handler (kind : HandlerKind)
  | minted (cookie : Bytes)
  | opened (path : Bytes)
  | openedPage (path : Bytes)
  | spawned (script args : Bytes)
  | head (response : Response) (accepted : Bytes)
  | body (accepted : Bytes)

/-- `Transaction`, with the router its lookups may grow and the events so
far. The buffer is in `Env`, the log entry is left out. -/
structure Txn where
  request : Request := {}
  response : Response := {}
  router : Router
  trace : List Event := []

/-- The time of the next use of the environment. -/
def Txn.time (txn : Txn) : Nat := txn.trace.length

/-- Why a process stops: a C++ exception, a wait that has not ended, or
undefined behaviour (a null pointer, a division by zero). -/
inductive Stop
  | raised (e : Exn)
  | pending
  | crash
  deriving DecidableEq

/-- `asio::awaitable<…>` over a transaction. -/
abbrev Act := Proc Txn Stop

/-- `throw`. -/
def throwExn {α : Type} (e : Exn) : Act α := Proc.raise (.raised e)

/-- A result of the source's non-coroutine functions. -/
def lift {α : Type} (r : Except Exn α) : Act α :=
  Proc.ofExcept .raised r

/-- A pointer read through. -/
def derefPtr {α : Type} (p : Option α) : Act α :=
  match p with
  | none => Proc.raise .crash
  | some x => pure x

/-- An event takes place. -/
def record (e : Event) : Act Unit :=
  Proc.modify fun txn => { txn with trace := txn.trace ++ [e] }

def modifyResponse (f : Response → Response) : Act Unit :=
  Proc.modify fun txn => { txn with response := f txn.response }

-- ========================================================== environment

/-- One `async_read_some` of the script's output, or its end. -/
inductive ScriptRead
  | chunk (data : Bytes)
  | eof
  | error
  deriving DecidableEq

/-- The steps of `ScriptStreamer::spawn` that can fail. -/
inductive SpawnStep
  | pipes
  | addDup2
  | addClose
  | spawn
  | write
  deriving DecidableEq

/-- How a script runs: the step of its spawn that fails, if any, and its
reads, as far as they have come. -/
structure ScriptRun where
  fails : Option SpawnStep := none
  reads : List ScriptRead := []

/-- A limiter's key as this request meets it: the clocks' seconds, the
word it loads and the results of its exchanges. -/
structure LimitView where
  secs : Int := 0
  systemSecs : Int := 0
  load : UInt64 := 0
  exchanges : List Exchange := []

/-- A token that was decoded and verified: its expiry and its `role`
claim, where they are there and of their type. -/
structure Token where
  expiresAt : Option Int := none
  role : Option Bytes := none
  deriving DecidableEq

/-- `cfg::Role`. -/
structure Role where
  title : Bytes
  includes : List Bytes := []

/-- `includesRole`. -/
def Role.includesRole (r : Role) (role : Bytes) : Bool :=
  r.title == role || r.includes.contains role

/-- What a transaction finds outside. -/
structure Env where
  ip : Bytes := []
  readEc : ErrorCode := .ok
  readData : Bytes := []
  fileExists : Bytes → Bool := fun _ => false
  json : Bytes → JsonResult := fun _ => .ok
  roles : AList fun _ : Bytes => Role := ∅
  jwt : Bytes → Except Bytes Token := fun _ => .error []
  now : Int := 0
  mint : Bytes → Bytes := id
  date : Nat → Bytes := fun _ => []
  file : Nat → Bytes → File := fun _ _ => {}
  script : ScriptRun := {}
  globalLimit : LimitView := {}
  routeLimit : LimitView := {}
  socket : Nat → Nat → List WriteAnswer := fun _ _ => []

/-- `BUFSIZ`, the size of the transaction's buffer. -/
def bufSiz : Nat := 8192

/-- The request buffer after the `co_read`. -/
def Env.buffer (env : Env) : Bytes := env.readData.take bufSiz

-- =============================================================== writing

section Writing

variable (env : Env)

/-- `co_write_all`, as a transaction meets it: the event tells what was
accepted, also while the call has not returned. -/
def coWrite (buffer : Bytes) (event : Bytes → Event) : Act WriteStatus := do
  let txn ← Proc.get
  let run := coWriteAll buffer (env.socket txn.time 0)
  record (event run.accepted)
  match run.result with
  | none => Proc.raise .pending
  | some result => pure result

/-- `response->build()` and the `co_write_all` of what it returns. -/
def sendHead : Act WriteStatus := do
  let txn ← Proc.get
  modifyResponse (·.build (env.date txn.time))
  let txn ← Proc.get
  coWrite env txn.response.serialise (.head txn.response)

/-- The check behind a write: `throw` unless it succeeded. -/
def requireSuccess (result : WriteStatus) : Act Unit :=
  if isSuccessCode result.status then pure ()
  else throwExn (writeFailed result.status)

/-- A `StringStreamer` over a built response. -/
def streamHead : Act Unit := do
  let result ← sendHead env
  requireSuccess result

/-- The constructor of a `FileStreamer`: the opened file and its length.
The event says for whom it is opened. -/
def openFileStreamer (event : Bytes → Event) (path : Bytes) :
    Act (File × Nat) := do
  let txn ← Proc.get
  record (event (cStr path))
  let file := env.file txn.time (cStr path)
  let fileLen ← lift (openFile path file)
  return (file, fileLen)

/-- `FileStreamer::stream` in a transaction. -/
def streamFile (path : Bytes) (file : File) (fileLen : Nat) :
    Act Unit := do
  let txn ← Proc.get
  let run := fileStream path file fileLen (env.socket txn.time)
  record (.body run.accepted)
  match run.result with
  | .returned _ => pure ()
  | .threw e => throwExn e
  | .pending => Proc.raise .pending

end Writing

end CgiWebServer
