/-
Limiter keys: the closures `get_key_func` returns (config.cpp), as data.
-/
import CgiWebServer.Http.Request

namespace CgiWebServer

/-- A `make_key` function, by its source and its `fallback`. -/
inductive KeyFunc
  | ip
  | header (name : Bytes) (ipFallback : Bool)
  | xff (ipFallback : Bool)
  | query (ipFallback : Bool)
  deriving DecidableEq

/-- The white space `trim` cuts. -/
def isTrimmed (b : Byte) : Bool := b == 32 || b == 9 || b == 13 || b == 10

/-- `trim`. -/
def trim (s : Bytes) : Bytes :=
  ((s.dropWhile isTrimmed).reverse.dropWhile isTrimmed).reverse

/-- `parseXff`: the first element of the list, trimmed. -/
def parseXff (xff : Bytes) : Bytes := trim (xff.takeWhile (· ≠ 44))

/-- A value if it is there, the client's address or a `Bad_Request`
otherwise: the shape of the three closures that read the request. -/
def keyOr (value : Bytes) (use : Bytes → Bytes) (ipFallback : Bool)
    (ip message : Bytes) : Except Exn Bytes :=
  if !value.isEmpty then .ok (use value)
  else if !ipFallback then
    .error (.http (.mk' .badRequest
      (bytes "client=" ++ ip ++ message ++ bytes ", unable to rate limit")
      ∅))
  else .ok ip

/-- `setting.make_key(txn)`. -/
def KeyFunc.makeKey (ip : Bytes) (request : Request) :
    KeyFunc → Except Exn Bytes
  | .ip => .ok ip
  | .header name ipFallback =>
      keyOr (request.getHeader name) id ipFallback ip
        (bytes " is missing header=" ++ name)
  | .xff ipFallback =>
      keyOr (request.getHeader (bytes "X-Forwarded-For")) parseXff ipFallback
        ip (bytes " missing header='X-Forwarded-For'")
  | .query ipFallback =>
      keyOr request.query id ipFallback ip (bytes ", missing query string")

end CgiWebServer
