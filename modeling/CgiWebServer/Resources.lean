/-
The descriptors and the child processes of a request (Streamer.cpp,
HeadHandler.cpp, GetHandler.cpp, PostHandler.cpp, Router.cpp).

The handlers and the error pages once more, beside a ledger of what the
process holds: each call that hands out or gives back a descriptor, and
each that makes a child or waits for one, stands where the source has it,
and an object's destructor is the cleanup of its scope. Everything else
is the step of the transaction that `Handlers` and `Pipeline` have.

An exception leaves the scopes of the objects that have been constructed.
An object whose constructor throws has not: what `openFile` has opened
by then, no destructor closes.
-/
import Mathlib.Data.Finset.Basic
import CgiWebServer.Lib.Shadow
import CgiWebServer.Net.Descriptors
import CgiWebServer.Pipeline

namespace CgiWebServer

namespace Resources

open Process Proc

-- ============================================================== the ledger

/-- What the process holds: its open descriptors, and the children nobody
has waited for. -/
structure Ledger where
  descriptors : Finset Int := ∅
  children : Finset Int := ∅
  deriving DecidableEq

/-- How new descriptors and children are numbered: by any number that is
free. -/
structure Kernel where
  descriptor : Finset Int → Int
  pid : Finset Int → Int
  descriptor_free : ∀ s, descriptor s ∉ s
  pid_free : ∀ s, pid s ∉ s

namespace Ledger

def take (k : Kernel) (l : Ledger) : Int × Ledger :=
  (k.descriptor l.descriptors,
    { l with
      descriptors := insert (k.descriptor l.descriptors) l.descriptors })

/-- `close`; a number that is not open is an error without effect. -/
def close (n : Int) (l : Ledger) : Ledger :=
  { l with descriptors := l.descriptors.erase n }

def closeAll (ns : List Int) (l : Ledger) : Ledger :=
  ns.foldl (fun l n => l.close n) l

def fork (k : Kernel) (l : Ledger) : Int × Ledger :=
  (k.pid l.children,
    { l with children := insert (k.pid l.children) l.children })

/-- `waitpid`. -/
def wait (pid : Int) (l : Ledger) : Ledger :=
  { l with children := l.children.erase pid }

end Ledger

/-- `asio::awaitable<…>` over a transaction and the ledger. -/
abbrev Sys := Proc (Txn × Ledger) Stop

/-- A C++ exception leaves a scope; a wait does not. -/
def leaves : Stop → Bool
  | .raised _ => true
  | _ => false

/-- What a script run meets that `Env.script` does not tell: what its
arrays' memory holds, whether the first `pipe` succeeds when one of the
two fails, and whether the reader can be attached to its descriptor. -/
structure ScriptCalls where
  memory : Descriptors.Pipes
  stdinMade : Bool := false
  attaches : Bool := true

section Calls

variable (kernel : Kernel)

/-- `open`: a new descriptor, or -1. -/
def openCall (file : File) : Sys Int :=
  aside fun l => if file.opens then l.take kernel else (-1, l)

def close (n : Int) : Sys Unit := aside fun l => ((), l.close n)

/-- `pipe`, where it succeeds. -/
def pipe : Sys (Int × Int) := do
  let a ← aside (·.take kernel)
  let b ← aside (·.take kernel)
  return (a, b)

end Calls

variable (env : Env) (kernel : Kernel) (calls : ScriptCalls)

-- =================================================================== files

/-- The constructor of a `FileStreamer`: `filefd`, and what `openFile`
has found. -/
def openFileStreamer (event : Bytes → Event) (path : Bytes) :
    Sys (Int × File × Nat) := do
  let txn ← beside Proc.get
  beside (record (event (cStr path)))
  let file := env.file txn.time (cStr path)
  let filefd ← openCall kernel file
  let fileLen ← beside (lift (openFile path file))
  return (filefd, file, fileLen)

/-- A `FileStreamer` and the rest of its scope. -/
def withFileStreamer (event : Bytes → Event) (path : Bytes)
    (rest : File → Nat → Act Unit) : Sys Unit := do
  let (filefd, file, fileLen) ← openFileStreamer env kernel event path
  withCleanup leaves (·.close filefd) (beside (rest file fileLen))

-- ================================================================= scripts

/-- The two `pipe`s of `ScriptStreamer::spawn`, as far as they succeed:
what the arrays hold behind them. -/
def makePipes : Sys Descriptors.Pipes :=
  match env.script.fails with
  | some .pipes =>
      if calls.stdinMade then do
        let (a, b) ← pipe kernel
        return { calls.memory with stdin0 := a, stdin1 := b }
      else return calls.memory
  | _ => do
      let (a, b) ← pipe kernel
      let (c, d) ← pipe kernel
      return { stdin0 := a, stdin1 := b, stdout0 := c, stdout1 := d }

/-- `posix_spawn` and the two `close`s behind it. -/
def launch (script args : Bytes) (p : Descriptors.Pipes) : Sys Int := do
  beside (record (.spawned (cStr script) args))
  let pid ← aside (·.fork kernel)
  close p.stdin0
  close p.stdout1
  return pid

/-- The rest of `ScriptStreamer::spawn`: the child. -/
def spawn (script args : Bytes) (p : Descriptors.Pipes) : Sys Int :=
  let fail (step : SpawnStep) : Sys Int :=
    beside (throwExn (.http
      (.mk' .internalServerError (step.message script) ∅)))
  match env.script.fails with
  | none => do
      let pid ← launch kernel script args p
      close p.stdin1
      return pid
  | some .write => do
      let _ ← launch kernel script args p
      fail .write
  | some step => fail step

/-- The constructor of a `stream_descriptor` that cannot register its
number; the `errno` text is left out. -/
def notAttached : Exn := .std (bytes "assign")

/-- `ScriptStreamer::stream`, behind the pipes. The reader closes the last
end when its scope is left. -/
def stream (script args : Bytes) (chunkCallback : Option (Bytes → Act Unit))
    (p : Descriptors.Pipes) : Sys Unit := do
  let pid ← spawn env kernel script args p
  if !calls.attaches then beside (throwExn notAttached)
  else
    withCleanup leaves (·.close p.stdout0) do
      beside (scriptLoop env script chunkCallback env.script.reads)
      aside fun l => ((), l.wait pid)

/-- A `ScriptStreamer`, its `stream` and its destructor, which closes the
four numbers in its arrays. Nothing throws before the pipes have been
tried, so that the scope may begin behind them. -/
def streamScript (script args : Bytes)
    (chunkCallback : Option (Bytes → Act Unit)) : Sys Unit := do
  let p ← makePipes env kernel calls
  withCleanup leaves (·.closeAll p.all)
    (stream env kernel calls script args chunkCallback p)

-- ================================================================ handlers

namespace GetHandler

/-- `GetHandler::handleScript`. -/
def handleScript : Sys Unit := do
  let txn ← beside Proc.get
  let endpoint ← beside
    (derefPtr (txn.request.endpoint.bind txn.router.deref))
  let script ← beside (lift (endpoint.getResource txn.request.method))
  streamScript env kernel calls script txn.request.args
    (some (relayChunk env true))

/-- `GetHandler::handleFile`. -/
def handleFile (route : EndpointMethod) : Sys Unit := do
  let txn ← beside Proc.get
  let file := route.resource
  match determineContentType file with
  | none =>
      beside (throwExn (.http (.mk' .forbidden
        (bytes "Failed to extract content_type for endpoint="
          ++ txn.request.endpointUrl ++ bytes ", file=" ++ file) ∅)))
  | some contentType =>
      beside (modifyResponse fun r =>
        ((r.setStatus .ok).addHeader (bytes "Connection") (bytes "close"))
          |>.addHeader (bytes "Content-Type") contentType)
      beside (streamHead env)
      withFileStreamer env kernel .opened file fun opened fileLen => do
        modifyResponse (·.addHeader (bytes "Content-Type") (toStr fileLen))
        streamFile env file opened fileLen

/-- `GetHandler::handle`. -/
def handle : Sys Unit := do
  let txn ← beside Proc.get
  match txn.request.endpoint, txn.request.route with
  | some _, some p =>
      let route ← beside (derefPtr (txn.router.derefRoute p))
      if route.hasScript then handleScript env kernel calls
      else handleFile env kernel route
  | _, _ => beside (throwExn (noRoute "GET" txn.request.endpointUrl))

end GetHandler

namespace PostHandler

/-- `PostHandler::handle`. -/
def handle : Sys Unit := do
  let txn ← beside Proc.get
  match txn.request.endpoint, txn.request.route with
  | some _, some p =>
      let route ← beside (derefPtr (txn.router.derefRoute p))
      if route.hasScript then
        streamScript env kernel calls route.resource txn.request.args
          (some (relayChunk env true))
      else beside (throwExn (noRoute "POST" txn.request.endpointUrl))
  | _, _ => beside (throwExn (noRoute "POST" txn.request.endpointUrl))

end PostHandler

namespace HeadHandler

/-- The end of `HeadHandler::buildResponse`, behind the `close`. -/
def setHeaders (txn : Txn) (path : Bytes) (file : File) : Act Unit := do
  let endpoint ← derefPtr (txn.request.endpoint.bind txn.router.deref)
  let resource ← lift (endpoint.getResource txn.request.method)
  match determineContentType resource with
  | none =>
      throwExn (.http (.mk' .forbidden
        (bytes "failed to extract content type for endpoint="
          ++ txn.request.endpointUrl ++ bytes ", from file=" ++ path) ∅))
  | some contentType =>
      modifyResponse fun r =>
        (((r.setStatus .ok).addHeader (bytes "Connection")
            (bytes "close")).addHeader (bytes "Content-Type")
            contentType).addHeader (bytes "Content-Length")
            (toStr file.fileLen)

/-- `HeadHandler::buildResponse`. `filefd` is a plain number: only the
`close` gives it back. -/
def buildResponse (route : EndpointMethod) : Sys Unit := do
  let txn ← beside Proc.get
  let path := route.resource
  beside (record (.opened (cStr path)))
  let file := env.file txn.time (cStr path)
  let filefd ← openCall kernel file
  if file.opens = false ∨ file.fileLen ≤ 0 then
    beside (throwExn
      (CgiWebServer.HeadHandler.notOpened path txn.request.endpointUrl))
  else
    close filefd
    beside (setHeaders txn path file)

/-- `HeadHandler::handle`. -/
def handle : Sys Unit := do
  let txn ← beside Proc.get
  match txn.request.endpoint, txn.request.route with
  | some _, some p =>
      let route ← beside (derefPtr (txn.router.derefRoute p))
      if route.hasScript then
        beside (throwExn (noRoute "GET" txn.request.endpointUrl))
      else
        buildResponse env kernel route
        beside (streamHead env)
  | _, _ => beside (throwExn (noRoute "GET" txn.request.endpointUrl))

end HeadHandler

-- ============================================================= error pages

/-- The `try` block of a configured error page's handler. -/
def serveErrorPage (file : Bytes) : Sys Unit :=
  withFileStreamer env kernel .openedPage file fun opened fileLen => do
    modifyResponse (·.addHeader (bytes "Content-Length") (toStr fileLen))
    streamHead env
    streamFile env file opened fileLen

/-- The handler of a configured error page. -/
def configuredErrorPage (file : Bytes) : Sys Unit :=
  Proc.recover (serveErrorPage env kernel file) fun stop =>
    match stop with
    | .raised _ => some (beside (defaultErrorPage env))
    | _ => none

/-- What a session runs: a method handler, or an error page's. -/
inductive Work
  | handler (kind : HandlerKind)
  | page (file : Option Bytes)

/-- Its run in the transaction. -/
def Work.act : Work → Act Unit
  | .handler kind => kind.run env
  | .page file => errorPage env file

/-- Its run beside the ledger. -/
def Work.run : Work → Sys Unit
  | .handler .get => GetHandler.handle env kernel calls
  | .handler .post => PostHandler.handle env kernel calls
  | .handler .head => HeadHandler.handle env kernel
  | .handler .options => beside (OptionsHandler.handle env)
  | .page none => beside (defaultErrorPage env)
  | .page (some file) => configuredErrorPage env kernel file

end Resources

end CgiWebServer
