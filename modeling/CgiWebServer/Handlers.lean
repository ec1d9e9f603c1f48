/-
The method handlers (GetHandler.cpp, PostHandler.cpp, HeadHandler.cpp,
OptionsHandler.cpp) and the script streamer they share (Streamer.cpp).

GET and POST relay a script's output through one and the same chunk
callback. It is meant to answer the first chunk only, but the lambda
captures `first_read` by copy and never changes it, so every chunk is
relayed as if it were the first.
-/
import CgiWebServer.Transaction

namespace CgiWebServer

open Process

variable (env : Env)

-- ============================================================== scripts

/-- The chunk callback, with its captured `first_read`. -/
def relayChunk (firstRead : Bool) (data : Bytes) : Act Unit :=
  if !firstRead then pure ()
  else do
    let status := extractStatusCode data
    modifyResponse fun r =>
      { r with statusMsg := extractHeaderLine data, status := status }
    if status = .badRequest ∨ status = .notAStatus then
      throwExn (.ofStatus .badGateway
        "Failed to parse response from script")
    else
      let body ← lift (extractBody data)
      modifyResponse fun r => { r with body := body }
      let headers ← lift (extractHeaders data)
      modifyResponse fun r => (r.addHeaders headers).addHeader
        (bytes "Connection") (bytes "close")
      streamHead env

/-- The message of a spawn that fails; pids and the `errno` text are left
out. -/
def SpawnStep.message (script : Bytes) : SpawnStep → Bytes
  | .pipes => bytes "Failed to create pipes for script=" ++ script
  | .addDup2 => bytes "failed to add file action dup2 for script=" ++ script
  | .addClose =>
      bytes "failed to add file action close for script=" ++ script
  | .spawn =>
      bytes "failed to launch script=" ++ script ++ bytes " with posix spawn"
  | .write => bytes "Failed to write args to script " ++ script

/-- `ScriptStreamer::spawn`. -/
def spawn (script args : Bytes) : Act Unit :=
  let fail (step : SpawnStep) : Act Unit :=
    throwExn (.http (.mk' .internalServerError (step.message script) ∅))
  match env.script.fails with
  | none => record (.spawned (cStr script) args)
  | some .write => do
      record (.spawned (cStr script) args)
      fail .write
  | some step => fail step

/-- The `while` of `ScriptStreamer::stream`. -/
def scriptLoop (script : Bytes) (chunkCallback : Option (Bytes → Act Unit)) :
    List ScriptRead → Act Unit
  | [] => Proc.raise .pending
  | .eof :: _ => pure ()
  | .error :: _ =>
      throwExn (.http (.mk' .internalServerError
        (bytes "Failed to read response from subprocess=" ++ script) ∅))
  | .chunk data :: rest => do
      match chunkCallback with
      | some callback => callback data
      | none => do
          let result ← coWrite env data .body
          requireSuccess result
      scriptLoop script chunkCallback rest

/-- `ScriptStreamer::stream`. -/
def streamScript (script args : Bytes)
    (chunkCallback : Option (Bytes → Act Unit)) : Act Unit := do
  spawn env script args
  scriptLoop env script chunkCallback env.script.reads

-- ============================================================= handlers

/-- The exception of a handler whose route is not of its kind. -/
def noRoute (what : String) (endpointUrl : Bytes) : Exn :=
  .http (.mk' .serviceUnavailable
    (bytes "No " ++ bytes what ++ bytes " route found for endpoint="
      ++ endpointUrl) ∅)

namespace GetHandler

/-- `GetHandler::handleScript`. -/
def handleScript : Act Unit := do
  let txn ← Proc.get
  let endpoint ← derefPtr (txn.request.endpoint.bind txn.router.deref)
  let script ← lift (endpoint.getResource txn.request.method)
  streamScript env script txn.request.args (some (relayChunk env true))

/-- `GetHandler::handleFile`. The head is sent before the file is
opened; the length goes into the header after that, under the wrong
name. -/
def handleFile (route : EndpointMethod) : Act Unit := do
  let txn ← Proc.get
  let file := route.resource
  match determineContentType file with
  | none =>
      throwExn (.http (.mk' .forbidden
        (bytes "Failed to extract content_type for endpoint="
          ++ txn.request.endpointUrl ++ bytes ", file=" ++ file) ∅))
  | some contentType =>
      modifyResponse fun r =>
        ((r.setStatus .ok).addHeader (bytes "Connection") (bytes "close"))
          |>.addHeader (bytes "Content-Type") contentType
      streamHead env
      let (opened, fileLen) ← openFileStreamer env .opened file
      modifyResponse (·.addHeader (bytes "Content-Type") (toStr fileLen))
      streamFile env file opened fileLen

/-- `GetHandler::handle`. -/
def handle : Act Unit := do
  let txn ← Proc.get
  match txn.request.endpoint, txn.request.route with
  | some _, some p =>
      let route ← derefPtr (txn.router.derefRoute p)
      if route.hasScript then handleScript env else handleFile env route
  | _, _ => throwExn (noRoute "GET" txn.request.endpointUrl)

end GetHandler

namespace PostHandler

/-- `PostHandler::handle`. -/
def handle : Act Unit := do
  let txn ← Proc.get
  match txn.request.endpoint, txn.request.route with
  | some _, some p =>
      let route ← derefPtr (txn.router.derefRoute p)
      if route.hasScript then
        streamScript env route.resource txn.request.args
          (some (relayChunk env true))
      else throwExn (noRoute "POST" txn.request.endpointUrl)
  | _, _ => throwExn (noRoute "POST" txn.request.endpointUrl)

end PostHandler

namespace HeadHandler

/-- The exception of a file that cannot be opened or is empty. -/
def notOpened (file endpointUrl : Bytes) : Exn :=
  .http (.mk' .notFound
    (bytes "failed to open file=" ++ file ++ bytes ", for endpoint="
      ++ endpointUrl) ∅)

/-- `HeadHandler::buildResponse`. The content type is that of the
endpoint's resource, looked up anew. -/
def buildResponse (route : EndpointMethod) : Act Unit := do
  let txn ← Proc.get
  let path := route.resource
  record (.opened (cStr path))
  let file := env.file txn.time (cStr path)
  if file.opens = false ∨ file.fileLen ≤ 0 then
    throwExn (notOpened path txn.request.endpointUrl)
  else
    let endpoint ← derefPtr (txn.request.endpoint.bind txn.router.deref)
    let resource ← lift (endpoint.getResource txn.request.method)
    match determineContentType resource with
    | none =>
        throwExn (.http (.mk' .forbidden
          (bytes "failed to extract content type for endpoint="
            ++ txn.request.endpointUrl ++ bytes ", from file=" ++ path) ∅))
    | some contentType =>
        modifyResponse fun r =>
          (((r.setStatus .ok).addHeader (bytes "Connection")
              (bytes "close")).addHeader (bytes "Content-Type")
              contentType).addHeader (bytes "Content-Length")
              (toStr file.fileLen)

/-- `HeadHandler::handle`. -/
def handle : Act Unit := do
  let txn ← Proc.get
  match txn.request.endpoint, txn.request.route with
  | some _, some p =>
      let route ← derefPtr (txn.router.derefRoute p)
      if route.hasScript then
        throwExn (noRoute "GET" txn.request.endpointUrl)
      else
        buildResponse env route
        streamHead env
  | _, _ => throwExn (noRoute "GET" txn.request.endpointUrl)

end HeadHandler

namespace OptionsHandler

/-- `get_methods_str`. -/
def getMethodsStr (methods : List Method) : Bytes :=
  (bytes ", ").intercalate (methods.map methodEnumToStr)

/-- `OptionsHandler::handle`. One `co_write`, whose answer nothing looks
at. -/
def handle : Act Unit := do
  let txn ← Proc.get
  match txn.request.endpoint with
  | none =>
      throwExn (.ofStatus .internalServerError
        "OPTIONS request for unexpected missing route or endpoint")
  | some p =>
      let endpoint ← derefPtr (txn.router.deref p)
      modifyResponse fun r =>
        ((r.addHeader (bytes "Allow")
            (getMethodsStr endpoint.getMethods)).addHeader
            (bytes "Content-Length") (bytes "0")).addHeader
            (bytes "Connection") (bytes "close")
      modifyResponse (·.build (env.date txn.time))
      let txn ← Proc.get
      let buffer := txn.response.serialise
      match env.socket txn.time 0 with
      | [] => do
          record (.head txn.response [])
          Proc.raise .pending
      | a :: _ =>
          record (.head txn.response (buffer.take (a.taken buffer.length)))

end OptionsHandler

/-- What a handler closure calls. -/
def HandlerKind.run : HandlerKind → Act Unit
  | .get => GetHandler.handle env
  | .post => PostHandler.handle env
  | .head => HeadHandler.handle env
  | .options => OptionsHandler.handle env

end CgiWebServer
