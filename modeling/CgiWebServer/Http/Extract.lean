/-
The extractors of http.cpp: what the server reads out of a request
buffer, a script's output and a `Cookie` header.

Each is a `find`-based scan over the whole buffer, written with the
positions the source computes. The header loop and the two loops of the
form validator advance on every turn, so the buffer's length is fuel
enough for each; the branch without fuel is never met.

`nlohmann::json::parse` is not part of the repository: `JsonResult` is
what it can do with a text, and the extractors that validate JSON take
it as a parameter.
-/
import CgiWebServer.Lib.Scan
import CgiWebServer.Http.Message

namespace CgiWebServer

open Scan (find findFrom)

def sp : Bytes := bytes " "
def crlfcrlf : Bytes := bytes "\r\n\r\n"
def lf : Bytes := bytes "\n"

theorem crlf_eq : crlf = [13, 10] := rfl
theorem sp_eq : sp = [32] := rfl
theorem headerSplitter_eq : headerSplitter = [58, 32] := rfl

/-- `sv.substr(pos, n)`. -/
def substr (s : Bytes) (pos n : Nat) : Bytes := (s.drop pos).take n

/-- The middle of three pieces, cut out by its position. -/
theorem substr_append (a b c : Bytes) :
    substr (a ++ (b ++ c)) a.length b.length = b := by
  rw [substr, List.drop_left, List.take_left]

-- ================================================== the request line

/-- `extract_header_line`: the first line, empty without a line end. -/
def extractHeaderLine (buffer : Bytes) : Bytes :=
  match find crlf buffer with
  | none => []
  | some e => buffer.take e

/-- `get_request_target`: what stands between the first two spaces. -/
def getRequestTarget (buffer : Bytes) : Except Exn Bytes :=
  match find sp buffer with
  | none =>
      .error (.ofStatus .badRequest "malformed request: no spaces")
  | some a =>
      match findFrom sp buffer (a + 1) with
      | none =>
          .error (.ofStatus .badRequest "malformed request: no second space")
      | some b => .ok (substr buffer (a + 1) (b - a - 1))

/-- `extract_endpoint`: the target up to its first `?`. -/
def extractEndpoint (buffer : Bytes) : Except Exn Bytes := do
  let target ← getRequestTarget buffer
  match find (bytes "?") target with
  | none => pure target
  | some q => pure (target.take q)

/-- `extract_query_string`: the target behind its first `?`. -/
def extractQueryString (buffer : Bytes) : Except Exn Bytes := do
  let target ← getRequestTarget buffer
  match find (bytes "?") target with
  | none => pure []
  | some q => pure (target.drop (q + 1))

theorem extractEndpoint_of_target {buffer target : Bytes}
    (h : getRequestTarget buffer = .ok target) :
    extractEndpoint buffer
      = .ok (((find (bytes "?") target).map target.take).getD target) := by
  unfold extractEndpoint
  rw [h]
  simp only [bind, Except.bind]
  cases find (bytes "?") target with
  | none => rfl
  | some q => rfl

theorem extractQueryString_of_target {buffer target : Bytes}
    (h : getRequestTarget buffer = .ok target) :
    extractQueryString buffer
      = .ok (((find (bytes "?") target).map
          fun q => target.drop (q + 1)).getD []) := by
  unfold extractQueryString
  rw [h]
  simp only [bind, Except.bind]
  cases find (bytes "?") target with
  | none => rfl
  | some q => rfl

/-- `extract_method`: the first line up to its first space. -/
def extractMethod (buffer : Bytes) : Except Exn Method :=
  match find crlf buffer with
  | none =>
      .error (.ofStatus .badRequest
        "failed to find return line feed while parsing request method")
  | some lineEnd =>
      let requestLine := buffer.take lineEnd
      match find sp requestLine with
      | none =>
          .error (.ofStatus .badRequest "failed to parse request method")
      | some methodEnd =>
          .ok (methodStrToEnum (requestLine.take methodEnd))

-- =============================================== body and header map

/-- `extract_body`: from behind the blank line (either spelling) to the
next line end (CRLF first, then LF), or to the end of the buffer. -/
def extractBody (buffer : Bytes) : Except Exn Bytes :=
  match (find crlfcrlf buffer).orElse fun _ => find (bytes "\n\n") buffer with
  | none =>
      .error (.ofStatus .badRequest "Failed to extract body from buffer")
  | some start =>
      let offset := if buffer[start]? == some 13 then 4 else 2
      let e := ((findFrom crlf buffer (start + offset)).orElse fun _ =>
        findFrom lf buffer (start + offset)).getD buffer.length
      .ok (substr buffer (start + offset) (e - (start + offset)))

/-- The one message of `extract_headers`. -/
def headersError : Exn :=
  .ofStatus .badRequest "failed to extract headers from request buffer"

/-- The `while` loop of `extract_headers`, at position `pos`. -/
def extractHeadersLoop (request : Bytes) (headersEnd : Nat) :
    Nat → Nat → Headers → Except Exn Headers
  | 0, _, headers => .ok headers
  | fuel + 1, pos, headers =>
      if headersEnd ≤ pos then .ok headers
      else
        match findFrom crlf request pos with
        | none => .error headersError
        | some e =>
            let line := substr request pos (e - pos)
            if line.isEmpty then .ok headers
            else
              match find headerSplitter line with
              | none => .error headersError
              | some splitterPos =>
                  extractHeadersLoop request headersEnd fuel
                    (e + crlf.length)
                    (headers.insert (line.take splitterPos)
                      (line.drop (splitterPos + headerSplitter.length)))

/-- `extract_headers`. -/
def extractHeaders (buffer : Bytes) : Except Exn Headers :=
  match find crlfcrlf buffer with
  | none => .error headersError
  | some headersEnd =>
      match findFrom crlf buffer 0 with
      | none => .error headersError
      | some endOfRequestLine =>
          extractHeadersLoop buffer headersEnd buffer.length
            (endOfRequestLine + crlf.length) ∅

-- =========================================== cookies, script statuses

/-- `extract_jwt_from_cookie`: what follows the first `jwt=`, up to the
next `;`. -/
def extractJwtFromCookie (cookie : Bytes) : Bytes :=
  match find (bytes "jwt=") cookie with
  | none => []
  | some start =>
      let s := start + (bytes "jwt=").length
      match findFrom (bytes ";") cookie s with
      | none => cookie.drop s
      | some e => substr cookie s (e - s)

/-- `extract_status_code`: the number between the first two spaces. Its
failures are statuses too: no space at all is `Bad_Request`, everything
else is `Bad_Gateway`. -/
def extractStatusCode (buffer : Bytes) : Code :=
  match find sp buffer with
  | none => .badRequest
  | some versionEnd =>
      match findFrom sp buffer (versionEnd + 1) with
      | none => .badGateway
      | some e =>
          match stoi (substr buffer (versionEnd + 1)
              (e - (versionEnd + 1))) with
          | none => .badGateway
          | some n => ⟨n⟩

-- ==================================================== argument checks

/-- `http::arg_type`. -/
inductive ArgType
  | none
  | any
  | bodyAny
  | bodyJson
  | bodyUrl
  | queryString
  deriving DecidableEq, Repr

/-- What `nlohmann::json::parse` does with a text: it returns, throws
`parse_error`, or throws `out_of_range` on a number no double holds. -/
inductive JsonResult
  | ok
  | parseError
  | outOfRange
  deriving DecidableEq, Repr

/-- `is_valid_json`: only `parse_error` is caught. -/
def isValidJson (json : Bytes → JsonResult) (body : Bytes) :
    Except Exn Bool :=
  match json body with
  | .ok => .ok true
  | .parseError => .ok false
  | .outOfRange => .error (.std (bytes "out_of_range"))

/-- The characters a key or value of a form may hold as they are. -/
def isFormChar (c : Byte) : Bool :=
  c == 43 || isAlnum c || c == 45 || c == 95 || c == 46 || c == 126

/-- The byte at `k` satisfies `p`; false past the end. -/
def byteAt (sv : Bytes) (k : Nat) (p : Byte → Bool) : Bool :=
  match sv[k]? with
  | some c => p c
  | none => false

/-- The inner `for` of `is_valid_url_form`, from `k` up to `stop`: a
`%` needs two hex digits somewhere in the whole string and skips them. -/
def isFormSpan (sv : Bytes) (stop : Nat) : Nat → Nat → Bool
  | 0, _ => true
  | fuel + 1, k =>
      if stop ≤ k then true
      else if byteAt sv k (· == 37) then
        if k + 2 ≥ sv.length || !byteAt sv (k + 1) isXDigit
            || !byteAt sv (k + 2) isXDigit then false
        else isFormSpan sv stop fuel (k + 3)
      else if byteAt sv k isFormChar then isFormSpan sv stop fuel (k + 1)
      else false

/-- The outer `while` of `is_valid_url_form`, at position `i`. -/
def isValidUrlFormLoop (sv : Bytes) : Nat → Nat → Bool
  | 0, _ => true
  | fuel + 1, i =>
      if sv.length ≤ i then true
      else
        match findFrom (bytes "=") sv i with
        | none => false
        | some eq =>
            if eq == i then false
            else if !isFormSpan sv eq sv.length i then false
            else
              match findFrom (bytes "&") sv (eq + 1) with
              | none => isFormSpan sv sv.length sv.length (eq + 1)
              | some amp =>
                  if !isFormSpan sv amp sv.length (eq + 1) then false
                  else isValidUrlFormLoop sv fuel (amp + 1)

/-- `is_valid_url_form`. -/
def isValidUrlForm (sv : Bytes) : Bool :=
  if sv.isEmpty then false else isValidUrlFormLoop sv sv.length 0

/-- `extract_header_field`: the first `field: ` anywhere in the buffer,
up to the next CRLF. -/
def extractHeaderField (buffer field : Bytes) : Option Bytes :=
  let field := field ++ headerSplitter
  match find field buffer with
  | none => none
  | some start =>
      match findFrom crlf buffer start with
      | none => none
      | some e =>
          let start := start + field.length
          if start > e then none else some (substr buffer start (e - start))

/-- `get_content_type`: lower-cased and cut at the first `;`. -/
def getContentType (buffer : Bytes) : Option Bytes :=
  match extractHeaderField buffer (bytes "Content-Type") with
  | none => none
  | some ct =>
      let ct := ct.map toLower
      let ct := ct.takeWhile (· ≠ 59)
      if ct.isEmpty then none else some ct

def jsonType : Bytes := bytes "application/json"
def formType : Bytes := bytes "application/x-www-form-urlencoded"

/-- `get_args`: the body, if its content type is the desired one and the
filter accepts it. -/
def getArgs (buffer desired : Bytes) (filter : Bytes → Except Exn Bool) :
    Except Exn Bytes := do
  let body ← extractBody buffer
  match getContentType buffer with
  | none =>
      .error (.http (.mk' .unsupportedMediaType
        (bytes "expected=" ++ desired ++ bytes ", none provided") ∅))
  | some contentType =>
      if contentType ≠ desired then
        .error (.http (.mk' .unsupportedMediaType
          (bytes "expected=" ++ desired ++ bytes ", client claimed="
            ++ contentType) ∅))
      else if ← filter body then pure body
      else
        .error (.http (.mk' .badRequest
          (bytes "invalid `" ++ desired ++ bytes "` body") ∅))

/-- `body_any`: the body, validated when it claims JSON or a form. -/
def bodyAny (json : Bytes → JsonResult) (buffer : Bytes) :
    Except Exn Bytes := do
  let body ← extractBody buffer
  match getContentType buffer with
  | none => pure body
  | some contentType =>
      let okJson ← (if contentType = jsonType then isValidJson json body
        else pure false)
      if okJson then pure body
      else if contentType = formType && isValidUrlForm body then pure body
      else if contentType = jsonType ∨ contentType = formType then
        .error (.http (.mk' .badRequest
          (bytes "invalid argument format in request body, client claimed="
            ++ contentType) ∅))
      else pure body

/-- `args_any`: the query string if there is one, the body otherwise. -/
def argsAny (json : Bytes → JsonResult) (buffer : Bytes) :
    Except Exn Bytes := do
  let result ← extractQueryString buffer
  if result.isEmpty then bodyAny json buffer else pure result

/-- `extract_args`. The `default` of its `switch` is for an enumerator
there is not. -/
def extractArgs (json : Bytes → JsonResult) (buffer : Bytes) :
    ArgType → Except Exn Bytes
  | .none => pure []
  | .any => argsAny json buffer
  | .bodyAny => bodyAny json buffer
  | .bodyJson => getArgs buffer jsonType (isValidJson json)
  | .bodyUrl => getArgs buffer formType fun b => pure (isValidUrlForm b)
  | .queryString => extractQueryString buffer

end CgiWebServer
