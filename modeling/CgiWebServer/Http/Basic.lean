/-
Status codes, methods and media types (http.h, http.cpp).
-/
import CgiWebServer.Basic

namespace CgiWebServer

-- ====================================================== status codes

/-- `http::code`. The enumeration has `int` underneath and
`extract_status_code` casts whatever integer a script printed into it,
so every integer is a code; the enumerators are the names below. -/
structure Code where
  val : Int
  deriving DecidableEq, Repr

namespace Code

def notAStatus : Code := ⟨-1⟩
def ok : Code := ⟨200⟩
def badRequest : Code := ⟨400⟩
def unauthorized : Code := ⟨401⟩
def forbidden : Code := ⟨403⟩
def notFound : Code := ⟨404⟩
def methodNotAllowed : Code := ⟨405⟩
def unsupportedMediaType : Code := ⟨415⟩
def tooManyRequests : Code := ⟨429⟩
def clientClosedRequest : Code := ⟨499⟩
def internalServerError : Code := ⟨500⟩
def notImplemented : Code := ⟨501⟩
def badGateway : Code := ⟨502⟩
def serviceUnavailable : Code := ⟨503⟩
def gatewayTimeout : Code := ⟨504⟩
def insufficientStorage : Code := ⟨507⟩

end Code

/-- `is_success_code`: from `OK` up to, not including, `Bad_Request`. -/
def isSuccessCode (status : Code) : Bool :=
  Code.ok.val ≤ status.val && status.val < Code.badRequest.val

/-- The reason phrases of `get_status_msg`, in the order of its
`switch`. -/
def statusMsgs : List (Int × String) :=
  [(200, "OK"), (201, "Created"), (202, "Accepted"), (204, "No Content"),
   (301, "Moved Permanently"), (302, "Found"), (303, "See Other"),
   (304, "Not Modified"), (400, "Bad Request"), (401, "Unauthorized"),
   (403, "Forbidden"), (404, "Not Found"), (405, "Method Not Allowed"),
   (415, "Unsupported Media Type"), (429, "Too Many Requests"),
   (499, "Client Closed Request"), (500, "Internal Server Error"),
   (501, "Not Implemented"), (502, "Bad Gateway"),
   (503, "Service Unavailable"), (504, "Gateway Timeout"),
   (507, "Insufficient Storage")]

/-- `get_status_msg`: a code without a case gets the line of 500. -/
def getStatusMsg (c : Code) : Bytes :=
  match statusMsgs.lookup c.val with
  | some reason => bytes s!"HTTP/1.1 {c.val} {reason}"
  | none => bytes "HTTP/1.1 500 Internal Server Error"

-- =========================================================== methods

/-- `http::method`. -/
inductive Method
  | get
  | head
  | post
  | options
  | notAllowed
  deriving DecidableEq, Repr

/-- `method_enum_to_str`. -/
def methodEnumToStr : Method → Bytes
  | .get => bytes "GET"
  | .head => bytes "HEAD"
  | .post => bytes "POST"
  | .options => bytes "OPTIONS"
  | .notAllowed => []

/-- `method_str_to_enum`: each method in all capitals or all lower
case. -/
def methodStrToEnum (s : Bytes) : Method :=
  if s == bytes "GET" || s == bytes "get" then .get
  else if s == bytes "POST" || s == bytes "post" then .post
  else if s == bytes "HEAD" || s == bytes "head" then .head
  else if s == bytes "OPTIONS" || s == bytes "options" then .options
  else .notAllowed

/-- Printing a method and reading it back. -/
theorem methodStrToEnum_methodEnumToStr (m : Method) :
    methodStrToEnum (methodEnumToStr m) = m := by
  cases m <;> rfl

-- ======================================================= media types

/-- `FILE_EXTENSIONS`. -/
def fileExtensions : List (Bytes × Bytes) :=
  [(bytes ".html", bytes "text/html"),
   (bytes ".css", bytes "text/css"),
   (bytes ".js", bytes "application/javascript"),
   (bytes ".png", bytes "image/png"),
   (bytes ".jpg", bytes "image/jpeg"),
   (bytes ".gif", bytes "image/gif"),
   (bytes ".ico", bytes "image/ico"),
   (bytes ".svg", bytes "image/svg+xml"),
   (bytes ".pdf", bytes "application/pdf"),
   (bytes ".txt", bytes "text/plain"),
   (bytes ".woff", bytes "font/woff"),
   (bytes ".woff2", bytes "font/woff2"),
   (bytes ".ttf", bytes "font/ttf"),
   (bytes ".otf", bytes "font/otf")]

/-- `resource.substr(resource.rfind('.'))`, if there is a dot. -/
def extensionOf (resource : Bytes) : Option Bytes :=
  if 46 ∈ resource then
    some (46 :: (resource.reverse.takeWhile (· ≠ 46)).reverse)
  else none

/-- `determine_content_type`: the media type of the listed extension,
`none` for the answer `Forbidden`. -/
def determineContentType (resource : Bytes) : Option Bytes :=
  (extensionOf resource).bind fun ext => fileExtensions.lookup ext

example : determineContentType (bytes "public/a.tar.txt")
    = some (bytes "text/plain") := by decide

end CgiWebServer
