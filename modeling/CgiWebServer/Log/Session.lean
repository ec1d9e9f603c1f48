/-
A session's log entry: what `mw::Logger` (Middleware.cpp) cuts out of
the request buffer, and the line that `SessionEntry::build` (logger.cpp)
makes of it.
-/
import CgiWebServer.Config
import CgiWebServer.Http.Extract
import CgiWebServer.Log.Logger

namespace CgiWebServer

open Scan (find findFrom)

-- ============================================================ the user agent

/-- `s.substr(pos, n)`, with its throw. `none` is a count of `npos`, or
one that a subtraction has wrapped: more than any string holds. -/
def substrAt (s : Bytes) (pos : Nat) (n : Option Nat) :
    Except Exn Bytes :=
  if pos ≤ s.length then
    .ok (match n with
      | none => s.drop pos
      | some n => substr s pos n)
  else .error (.std (bytes "basic_string::substr"))

def userAgentLabel : Bytes := bytes "User-Agent: "

/-- `trim_user_agent`. -/
def trimUserAgent (userAgent : Bytes) : Except Exn Bytes :=
  if find userAgentLabel userAgent = some 0 then
    substrAt userAgent userAgentLabel.length none
  else .ok userAgent

/-- `get_identifier`. Where the parenthesis comes first, its
`identifier_end - 1` is `npos`. -/
def getIdentifier (userAgent : Bytes) : Except Exn Bytes :=
  match find (bytes "(") userAgent with
  | none => .ok []
  | some 0 => substrAt userAgent 0 none
  | some (identifierEnd + 1) => substrAt userAgent 0 (some identifierEnd)

/-- `get_os`. From `npos` there is no `)` to find. -/
def getOs (userAgent : Bytes) : Except Exn Bytes :=
  match find (bytes "(") userAgent with
  | none => .ok []
  | some osStart =>
      match findFrom (bytes ")") userAgent osStart with
      | none => .ok []
      | some osEnd => do
          let osInfo ← substrAt userAgent (osStart + 1)
            (some (osEnd - osStart - 1))
          pure (bytes " on " ++ osInfo)

/-- `browsers`, in its order. -/
def browsers : List Bytes :=
  [bytes "Chrome/", bytes "Firefox/", bytes "Safari/", bytes "Edge/",
   bytes "Opera/", bytes "Brave/", bytes "Chromium/"]

/-- `get_browser`. -/
def getBrowser (userAgent : Bytes) : Except Exn Bytes :=
  match browsers.findSome? fun browser => find browser userAgent with
  | none => .ok []
  | some browserStart => do
      let browserInfo ← substrAt userAgent browserStart
        ((findFrom sp userAgent browserStart).map (· - browserStart))
      pure (if browserInfo.isEmpty then [] else sp ++ browserInfo)

/-- `get_user_agent`: from the buffer's first `User-Agent` to the next
line end, in three parts. -/
def getUserAgent (buffer : Bytes) : Except Exn Bytes :=
  match find (bytes "User-Agent") buffer with
  | none => .ok []
  | some uaStart =>
      match findFrom crlf buffer uaStart with
      | none => .ok []
      | some uaEnd => do
          let userAgent ← substrAt buffer uaStart (some (uaEnd - uaStart))
          let userAgent ← trimUserAgent userAgent
          let identifier ← getIdentifier userAgent
          let os ← getOs userAgent
          let browser ← getBrowser userAgent
          pure (identifier ++ os ++ browser)

/-- `get_header_line`. -/
def getHeaderLine (buffer : Bytes) : Except Exn Bytes :=
  match find crlf buffer with
  | none => .ok []
  | some lineEnd => substrAt buffer 0 (some lineEnd)

-- ================================================================= the entry

/-- `logger::SessionEntry`: the time points by their nanoseconds. -/
structure SessionEntry where
  level : LogLevel := .info
  protected bytes : UInt64 := 0
  userAgent : Bytes := []
  request : Bytes := []
  response : Bytes := []
  clientAddr : Bytes := []
  latencyStartTime : Int := 0
  latencyEndTime : Int := 0
  rttStartTime : Int := 0
  rttEndTime : Int := 0

/-- What `mw::Logger::process` does behind `next`, with the address, the
buffer and the response of the transaction. The clocks it has read by
then are in the entry. -/
def loggerProcess (ip buffer : Bytes) (response : Response)
    (rttEndTime : Int) (entry : SessionEntry) :
    Except Exn SessionEntry := do
  let userAgent ← getUserAgent buffer
  let request ← getHeaderLine buffer
  pure
    { entry with
      clientAddr := ip
      userAgent := userAgent
      request := request
      response := response.statusMsg
      rttEndTime := rttEndTime
      level := if isSuccessCode response.status then .info else .error }

-- ================================================================== the line

/-- A local time, as far as `get_time` prints it. -/
structure LocalTime where
  year : Int
  month : Nat
  day : Nat
  hour : Nat
  minute : Nat

/-- `get_time`, by the format `%Y-%m-%d %H:%M`. -/
def getTime (t : LocalTime) : Bytes :=
  toStr t.year ++ bytes "-" ++ twoDigits t.month ++ bytes "-"
    ++ twoDigits t.day ++ sp ++ twoDigits t.hour ++ bytes ":"
    ++ twoDigits t.minute

/-- `duration_ms`. -/
def durationMs (startTime endTime : Int) : Int :=
  wrapInt ((endTime - startTime).tdiv 1000000)

/-- `units`. -/
def units : List Bytes :=
  [bytes " bytes", bytes " KB", bytes " MB", bytes " GB", bytes " TB"]

/-- The loop of `format_bytes`, with so many turns left: how often it has
divided. `double_bytes` is `bytes` over a power of 1024, which a `double`
holds up to the numbers at which the loop has ended by its count. -/
def unitLoop (size : Int) : Nat → Nat → Nat
  | 0, i => i
  | turns + 1, i =>
      if size > 1024 ^ (i + 1) then unitLoop size turns (i + 1) else i

/-- `format_bytes`. The array ends in front of the unit that five
divisions lead to, and a number below `int` cannot be cast: `none`. -/
def formatBytes (size : Int) : Option Bytes :=
  if size = 1 then some (bytes " byte")
  else if size < -2147483648 then none
  else
    let i := unitLoop size 5 0
    units[i]?.map (toStr (size.tdiv (1024 ^ i)) ++ ·)

/-- `latency_RTT_size`, in its brackets. -/
def latencyRttSize (e : SessionEntry) : Option Bytes := do
  let size ←
    if e.bytes ≠ 0 then
      (formatBytes e.bytes.toInt64.toInt).map (bytes " Size: " ++ ·)
    else some []
  pure (bytes " [Latency: "
    ++ toStr (durationMs e.latencyStartTime e.latencyEndTime)
    ++ bytes " ms RTT: " ++ toStr (durationMs e.rttStartTime e.rttEndTime)
    ++ bytes " ms" ++ size ++ bytes "] ")

/-- `SessionEntry::build`, at what `get_time` says. -/
def buildSession (time : Bytes) (e : SessionEntry) : Option Bytes := do
  let latency ← latencyRttSize e
  pure (bytes "[" ++ time ++ bytes "] " ++ levelToStr e.level
    ++ (bytes " [client " ++ e.clientAddr ++ bytes "] ")
    ++ (bytes "\"" ++ e.request ++ bytes "\" ") ++ e.userAgent ++ latency
    ++ e.response ++ bytes "\n")

example : formatBytes 1536 = some (bytes "1 KB") := by decide

end CgiWebServer
