/-
The parsed request (`http::Request`, http.h).

`endpoint` and `route` are pointers into the router's table. A pointer
is the key it was looked up under: reading through it is a lookup in the
table of that moment, so that what a handler finds there is a statement
about the table and not about the parser.
-/
import CgiWebServer.Http.Message

namespace CgiWebServer

/-- `const http::Endpoint*`: the key of the table entry. -/
abbrev EndpointPtr := Bytes

/-- `const http::EndpointMethod*`: the key of the entry and of the
method in it. -/
structure RoutePtr where
  endpoint : EndpointPtr
  method : Method
  deriving DecidableEq

/-- `http::Request`; the null pointers are `none`. -/
structure Request where
  method : Method := .notAllowed
  query : Bytes := []
  args : Bytes := []
  endpointUrl : Bytes := []
  endpoint : Option EndpointPtr := none
  route : Option RoutePtr := none
  headers : Headers := ∅
  body : Bytes := []
  deriving DecidableEq

/-- `getHeader`: empty if there is none. -/
def Request.getHeader (r : Request) (key : Bytes) : Bytes :=
  (r.headers.lookup key).getD []

end CgiWebServer
