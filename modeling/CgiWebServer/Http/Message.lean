/-
Responses and the exceptions that carry them (`http::Response` and
`http::HTTPException`, http.h).

`std::unordered_map` is Mathlib's `AList`: at most one entry for a key,
`m[k] = v` is `insert`. The order in which `build` meets the headers is
unspecified in C++; the list's order stands for it and nothing depends
on which order it is.
-/
import Mathlib.Data.List.AList
import CgiWebServer.Http.Basic

namespace CgiWebServer

/-- `std::unordered_map<std::string, std::string>`. -/
abbrev Headers := AList fun _ : Bytes => Bytes

def crlf : Bytes := bytes "\r\n"

/-- The separator of a header line. -/
def headerSplitter : Bytes := bytes ": "

-- ============================================================== the date

/-- What `get_time_stamp` prints of a `std::tm`. -/
structure GmTime where
  weekday : Fin 7
  day : Nat
  month : Fin 12
  year : Int
  hour : Nat
  minute : Nat
  second : Nat

/-- The names `%a` prints in the C locale, from Sunday on. -/
def weekdayNames : List Bytes :=
  ["Sun", "Mon", "Tue", "Wed", "Thu", "Fri", "Sat"].map bytes

/-- The names `%b` prints. -/
def monthNames : List Bytes :=
  ["Jan", "Feb", "Mar", "Apr", "May", "Jun", "Jul", "Aug", "Sep", "Oct",
   "Nov", "Dec"].map bytes

/-- `get_time_stamp`, by the format `%a, %d %b %Y %H:%M:%S GMT`. -/
def getTimeStamp (t : GmTime) : Bytes :=
  weekdayNames.getD t.weekday [] ++ bytes ", " ++ twoDigits t.day
    ++ bytes " " ++ monthNames.getD t.month [] ++ bytes " " ++ toStr t.year
    ++ bytes " " ++ twoDigits t.hour ++ bytes ":" ++ twoDigits t.minute
    ++ bytes ":" ++ twoDigits t.second ++ bytes " GMT"

example : getTimeStamp ⟨0, 6, 10, 1994, 8, 49, 37⟩
    = bytes "Sun, 06 Nov 1994 08:49:37 GMT" := by decide

-- ========================================================== the response

/-- `http::Response`. `built_response` is left out: `build` writes it
and nothing reads it. -/
structure Response where
  status : Code := Code.ok
  statusMsg : Bytes := getStatusMsg Code.ok
  body : Bytes := []
  headers : Headers := ∅
  deriving DecidableEq

namespace Response

/-- The constructor that takes a status (`setStatus` on a fresh
response). -/
def ofStatus (newStatus : Code) : Response :=
  { status := newStatus, statusMsg := getStatusMsg newStatus }

def setStatus (r : Response) (newStatus : Code) : Response :=
  { r with status := newStatus, statusMsg := getStatusMsg newStatus }

def addHeader (r : Response) (key val : Bytes) : Response :=
  { r with headers := r.headers.insert key val }

/-- `addHeaders`: every given header replaces the entry of its key. -/
def addHeaders (r : Response) (hs : Headers) : Response :=
  { r with
    headers := hs.entries.foldl (fun m e => m.insert e.1 e.2) r.headers }

/-- One header line of the serialised head. -/
def headerLine (key val : Bytes) : Bytes :=
  key ++ headerSplitter ++ val ++ crlf

/-- The bytes of a response: status line, headers, blank line, body. -/
def serialise (r : Response) : Bytes :=
  r.statusMsg ++ crlf
    ++ r.headers.entries.flatMap (fun e => headerLine e.1 e.2)
    ++ crlf ++ r.body

/-- The response `build` leaves behind: it sets the `Date` header. What
it returns are the bytes of that response (`serialise`). -/
def build (date : Bytes) (r : Response) : Response :=
  r.addHeader (bytes "Date") date

@[simp] theorem addHeader_headers (r : Response) (key val : Bytes) :
    (r.addHeader key val).headers = r.headers.insert key val := rfl

@[simp] theorem build_statusMsg (date : Bytes) (r : Response) :
    (r.build date).statusMsg = r.statusMsg := rfl

/-- Given headers replace what was there, key by key. -/
theorem lookup_addHeaders (r : Response) (hs : Headers) (k : Bytes) :
    (r.addHeaders hs).headers.lookup k
      = (hs.lookup k).or (r.headers.lookup k) := by
  have hfold : ∀ (entries : List (Sigma fun _ : Bytes => Bytes)),
      entries.NodupKeys → ∀ m : Headers,
        (entries.foldl (fun m e => m.insert e.1 e.2) m).lookup k
          = (entries.dlookup k).or (m.lookup k) := by
    intro entries
    induction entries with
    | nil => exact fun _ _ => rfl
    | cons e rest ih =>
        intro hnodup m
        obtain ⟨key, val⟩ := e
        obtain ⟨hfresh, hrest⟩ := List.nodupKeys_cons.mp hnodup
        rw [List.foldl_cons, ih hrest]
        by_cases hk : k = key
        · subst hk
          rw [List.dlookup_eq_none.mpr hfresh, List.dlookup_cons_eq,
            AList.lookup_insert]
          rfl
        · rw [List.dlookup_cons_ne rest _ hk, AList.lookup_insert_ne hk]
  exact hfold hs.entries hs.nodupKeys r.headers

/-- The status line and its line end lead the serialised response. -/
theorem statusMsg_prefix_serialise (r : Response) :
    r.statusMsg ++ crlf <+: r.serialise := by
  unfold serialise
  rw [List.append_assoc, List.append_assoc]
  exact List.prefix_append _ _

/-- The line of every header is in the serialised response. -/
theorem headerLine_infix_serialise {r : Response} {key val : Bytes}
    (h : r.headers.lookup key = some val) :
    headerLine key val <:+: r.serialise := by
  have hmem : (⟨key, val⟩ : Sigma fun _ : Bytes => Bytes)
      ∈ r.headers.entries := AList.mem_lookup_iff.mp h
  obtain ⟨before, after, hsplit⟩ := List.append_of_mem hmem
  unfold serialise
  rw [hsplit, List.flatMap_append, List.flatMap_cons]
  refine ⟨r.statusMsg ++ crlf
      ++ before.flatMap (fun e => headerLine e.1 e.2),
    after.flatMap (fun e => headerLine e.1 e.2) ++ crlf ++ r.body, ?_⟩
  simp only [List.append_assoc]

end Response

-- ======================================================== exceptions

/-- `http::HTTPException`: the response it carries and its `what()`. -/
structure HTTPException where
  response : Response
  message : Bytes
  deriving DecidableEq

namespace HTTPException

/-- The two constructors (the first has no headers of its own). Both
also `build()` the response once; the `Date` entry that leaves is set
anew by the `build` in front of every send. -/
def mk' (status : Code) (message : Bytes) (headers : Headers) :
    HTTPException :=
  { response := (((Response.ofStatus status).addHeaders headers).addHeader
      (bytes "Connection") (bytes "close")).addHeader
      (bytes "Content-Length") (bytes "0")
    message := message }

@[simp] theorem mk'_status (status : Code) (message : Bytes)
    (headers : Headers) :
    (mk' status message headers).response.status = status := rfl

@[simp] theorem mk'_body (status : Code) (message : Bytes)
    (headers : Headers) :
    (mk' status message headers).response.body = [] := rfl

end HTTPException

/-- What a `throw` raises: an `HTTPException`, or any other
`std::exception`, by its `what()`. -/
inductive Exn
  | http (e : HTTPException)
  | std (what : Bytes)
  deriving DecidableEq

namespace Exn

/-- `throw http::HTTPException(status, message)`. -/
def ofStatus (status : Code) (message : String) : Exn :=
  .http (.mk' status (bytes message) ∅)

/-- The status `ErrorHandler` answers an exception with. -/
def status : Exn → Code
  | .http e => e.response.status
  | .std _ => Code.internalServerError

end Exn

end CgiWebServer
