/-
Two requests that differ in the letter case of header names.

# What the decisions read

Of a request's header lines the decisions read two things. The limiters'
keys and the authenticator look a name up in the map, byte for byte: they
get the last line that is spelled exactly so (`lastValue`). The argument
check goes by the first `Content-Type: ` of the whole text and tells JSON
and forms from the rest (`announced`).

# The law

So two such requests meet the same decisions, under every configuration,
exactly if for each spelling of a name the last line spelled so has the
same value in both, and both announce the same kind of body
(`header_case_iff`).
-/
import CgiWebServer.Config
import CgiWebServer.Proofs.Body
import CgiWebServer.Proofs.ContentType
import CgiWebServer.Proofs.Parsing
import CgiWebServer.Proofs.Request

namespace CgiWebServer

open Scan (find)

-- ================================================================ the pair

/-- Two requests that are the same but for the letter case of header
names. -/
structure SameButCase (r r' : RequestText) : Prop where
  method : r.method = r'.method
  path : r.path = r'.path
  query : r.query = r'.query
  version : r.version = r'.version
  headers : List.Forall₂ (fun h g => h.1.map toLower = g.1.map toLower
    ∧ h.2 = g.2) r.headers r'.headers
  body : r.body = r'.body

/-- The value of the last line that is spelled so, empty without one. -/
def lastValue (name : Bytes) (hs : List (Bytes × Bytes)) : Bytes :=
  (hs.reverse.lookup name).getD []

/-- What a body is announced as. -/
inductive BodyKind
  | json
  | form
  | other
  deriving DecidableEq

/-- The kind of a content type, if there is one. -/
def kindOf (contentType : Option Bytes) : BodyKind :=
  if contentType = some jsonType then .json
  else if contentType = some formType then .form
  else .other

/-- What the first `Content-Type: ` of a text announces. -/
def announced (buffer : Bytes) : BodyKind :=
  kindOf (readAt buffer (find contentTypeField buffer))

-- =========================================================== the verdicts

/-- What a parse decides: a status, or the argument data. -/
def verdict : Except Exn (Request × Router) → Except Code Bytes
  | .error e => .error e.status
  | .ok (request, _) => .ok request.args

section Args

variable (json : Bytes → JsonResult) (query body : Bytes)

/-- What becomes of a body that claims to be JSON. -/
def jsonVerdict : Except Code Bytes :=
  match json body with
  | .ok => .ok body
  | .parseError => .error .badRequest
  | .outOfRange => .error .internalServerError

/-- And of one that claims to be a form. -/
def formVerdict : Except Code Bytes :=
  if isValidUrlForm body then .ok body else .error .badRequest

def bodyVerdict : BodyKind → Except Code Bytes
  | .json => jsonVerdict json body
  | .form => formVerdict body
  | .other => .ok body

/-- What the argument check decides, by the query, the body and what the
body is announced as. -/
def argsVerdict (kind : BodyKind) : ArgType → Except Code Bytes
  | .none => .ok []
  | .any => if query.isEmpty then bodyVerdict json body kind else .ok query
  | .bodyAny => bodyVerdict json body kind
  | .bodyJson =>
      if kind = .json then jsonVerdict json body
      else .error .unsupportedMediaType
  | .bodyUrl =>
      if kind = .form then formVerdict body
      else .error .unsupportedMediaType
  | .queryString => .ok query

variable {json query body} {buffer : Bytes}

/-- A check of JSON, whatever its refusal says. -/
theorem verdict_of_json (message : Bytes) :
    ((isValidJson json body).bind fun valid =>
        if valid then Except.ok body
        else .error (.http (.mk' .badRequest message ∅))).mapError Exn.status
      = jsonVerdict json body := by
  unfold isValidJson jsonVerdict
  cases json body with
  | ok => rfl
  | parseError => rfl
  | outOfRange => rfl

theorem announced_eq (buffer : Bytes) :
    announced buffer = kindOf (getContentType buffer) := by
  rw [announced, getContentType_eq]

theorem verdict_bodyAny (hbody : extractBody buffer = .ok body) :
    (bodyAny json buffer).mapError Exn.status
      = bodyVerdict json body (announced buffer) := by
  rw [announced_eq, kindOf]
  by_cases hjson : getContentType buffer = some jsonType
  · rw [if_pos hjson, bodyAny_of_json hbody hjson]
    exact verdict_of_json _
  · rw [if_neg hjson]
    by_cases hform : getContentType buffer = some formType
    · rw [if_pos hform, bodyAny_of_form hbody hform, bodyVerdict,
        formVerdict]
      split
      · rfl
      · rfl
    · rw [if_neg hform, bodyAny_of_other hbody hjson hform]
      rfl

theorem verdict_bodyJson (hbody : extractBody buffer = .ok body) :
    (getArgs buffer jsonType (isValidJson json)).mapError Exn.status
      = argsVerdict json query body (announced buffer) .bodyJson := by
  rw [announced_eq, argsVerdict, kindOf]
  by_cases hjson : getContentType buffer = some jsonType
  · rw [if_pos hjson, if_pos rfl, getArgs_of_desired hbody hjson]
    exact verdict_of_json _
  · have hother : ∃ e, getArgs buffer jsonType (isValidJson json) = .error e
        ∧ Refuses .unsupportedMediaType e := getArgs_of_other hbody hjson
    obtain ⟨e, hargs, ex, rfl, hstatus⟩ := hother
    have hkind : (if getContentType buffer = some formType then BodyKind.form
        else .other) ≠ .json := by
      split <;> decide
    rw [if_neg hjson, if_neg hkind, hargs]
    exact congrArg Except.error hstatus

theorem verdict_bodyUrl (hbody : extractBody buffer = .ok body) :
    (getArgs buffer formType fun b => pure (isValidUrlForm b)).mapError
        Exn.status
      = argsVerdict json query body (announced buffer) .bodyUrl := by
  rw [announced_eq, argsVerdict, kindOf]
  by_cases hform : getContentType buffer = some formType
  · have hjson : getContentType buffer ≠ some jsonType := by
      rw [hform]
      exact fun h => jsonType_ne_formType (Option.some.inj h).symm
    rw [if_neg hjson, if_pos hform, if_pos rfl,
      getArgs_of_desired hbody hform, formVerdict]
    show Except.mapError Exn.status (if isValidUrlForm body = true then _
      else _) = _
    split
    · rfl
    · rfl
  · have hother : ∃ e, getArgs buffer formType
          (fun b => pure (isValidUrlForm b)) = .error e
        ∧ Refuses .unsupportedMediaType e := getArgs_of_other hbody hform
    obtain ⟨e, hargs, ex, rfl, hstatus⟩ := hother
    have hkind : (if getContentType buffer = some jsonType then BodyKind.json
        else if getContentType buffer = some formType then .form
        else .other) ≠ .form := by
      rw [if_neg hform]
      split <;> decide
    rw [if_neg hkind, hargs]
    exact congrArg Except.error hstatus

theorem verdict_extractArgs (hbody : extractBody buffer = .ok body)
    (hquery : extractQueryString buffer = .ok query) (argType : ArgType) :
    (extractArgs json buffer argType).mapError Exn.status
      = argsVerdict json query body (announced buffer) argType := by
  cases argType with
  | none => rfl
  | queryString =>
      rw [extractArgs, hquery]
      rfl
  | any =>
      rw [extractArgs, argsAny, hquery, argsVerdict]
      show Except.mapError Exn.status (if query.isEmpty = true then _
        else _) = _
      split
      · exact verdict_bodyAny hbody
      · rfl
  | bodyAny => exact verdict_bodyAny hbody
  | bodyJson => exact verdict_bodyJson hbody
  | bodyUrl => exact verdict_bodyUrl hbody

end Args

-- =============================================================== the parse

section Text

variable (env : Env) (router : Router) (r : RequestText)

/-- The body is read up to its first line end. -/
theorem extractBody_buffer : extractBody r.buffer = .ok (firstLine r.body) := by
  have hblank : find crlfcrlf r.buffer
      = some (r.requestLine.length + (fieldsText r.headers).length) :=
    find_blank_line r.body (readable_of_no_cr r.name_ok r.value_ok)
      (no_crlf r.requestLine_no_cr)
  obtain ⟨hle, ⟨rest, hrest⟩, -⟩ := Scan.find_eq_some_iff.mp hblank
  -- What lies behind the blank line is the body: the text in front has
  -- exactly the length find gave.
  have hbehind : rest = r.body := by
    have hsplit : r.buffer = (r.requestLine ++ (crlf
        ++ (fieldsText r.headers ++ crlf))) ++ r.body := by
      simp only [RequestText.buffer, List.append_assoc]
    have hlen : (r.requestLine ++ (crlf
        ++ (fieldsText r.headers ++ crlf))).length
        = r.requestLine.length + (fieldsText r.headers).length + 4 := by
      simp only [List.length_append, crlf_eq, List.length_cons,
        List.length_nil]
      omega
    calc rest = (crlfcrlf ++ rest).drop 4 := rfl
      _ = r.buffer.drop
            (r.requestLine.length + (fieldsText r.headers).length + 4) := by
          rw [hrest, List.drop_drop]
      _ = r.body := by rw [hsplit, ← hlen, List.drop_left]
  have htake : (r.buffer.take
      (r.requestLine.length + (fieldsText r.headers).length)).length
      = r.requestLine.length + (fieldsText r.headers).length :=
    List.length_take_of_le hle
  have hbuffer : r.buffer = r.buffer.take
      (r.requestLine.length + (fieldsText r.headers).length)
        ++ (crlfcrlf ++ r.body) := by
    rw [← hbehind, hrest, List.take_append_drop]
  rw [hbuffer] at hblank ⊢
  apply extractBody_firstLine
  rw [hblank, htake]

/-- The request that is stored for a text. -/
def requestOf (endpoint : EndpointPtr) (args : Bytes) : Request where
  method := r.method
  query := r.query.getD []
  args := args
  endpointUrl := r.path
  endpoint := some endpoint
  route := some { endpoint := endpoint, method := r.method }
  headers := headerMap r.headers ∅
  body := firstLine r.body

/-- On the text of a request only the lookups and the argument check can
fail. -/
theorem parse_buffer :
    parse env r.buffer router
      = (router.getEndpoint env.fileExists r.path).bind fun found =>
          (((found.2.deref found.1).getD {}).getArgType r.method).bind
            fun argType => (extractArgs env.json r.buffer argType).map
              fun args => (requestOf r found.1 args, found.2) := by
  rw [parse, extractEndpoint_buffer, extractMethod_buffer,
    extractHeaders_buffer, extractBody_buffer, extractQueryString_buffer]
  simp only [bind, Except.bind]
  cases router.getEndpoint env.fileExists r.path with
  | error e => rfl
  | ok found =>
      dsimp only
      cases ((found.2.deref found.1).getD {}).getArgType r.method with
      | error e => rfl
      | ok argType =>
          dsimp only
          cases extractArgs env.json r.buffer argType with
          | error e => rfl
          | ok args => rfl

end Text

-- ============================================================ the decisions

/-- Two texts meet the same decisions: under every configuration, with
every library and on every route table. -/
structure SameDecisions (b b' : Bytes) : Prop where
  parser : ∀ env router,
    verdict (parse env b router) = verdict (parse env b' router)
  keys : ∀ env router q q' found found',
    parse env b router = .ok (q, found) →
    parse env b' router = .ok (q', found') →
    ∀ algo ip, (getKeyFunc algo).1.makeKey ip q
      = (getKeyFunc algo).1.makeKey ip q'
  validate : ∀ env router q q' found found',
    parse env b router = .ok (q, found) →
    parse env b' router = .ok (q', found') →
    ∀ entry, validate env q entry = .ok () ↔ validate env q' entry = .ok ()

variable {r r' : RequestText}

/-- The verdict on a text, by the verdict of its argument check. -/
theorem verdict_parse (env : Env) (router : Router) (r : RequestText) :
    verdict (parse env r.buffer router)
      = ((router.getEndpoint env.fileExists r.path).mapError Exn.status).bind
          fun found =>
            ((((found.2.deref found.1).getD {}).getArgType r.method).mapError
              Exn.status).bind
            fun argType => argsVerdict env.json (r.query.getD [])
              (firstLine r.body) (announced r.buffer) argType := by
  rw [parse_buffer]
  cases router.getEndpoint env.fileExists r.path with
  | error e => rfl
  | ok found =>
      show verdict (Except.bind (((found.2.deref found.1).getD {}).getArgType
        r.method) _) = Except.bind (Except.mapError Exn.status
          (((found.2.deref found.1).getD {}).getArgType r.method)) _
      cases ((found.2.deref found.1).getD {}).getArgType r.method with
      | error e => rfl
      | ok argType =>
          show verdict (Except.map _ (extractArgs env.json r.buffer argType))
            = argsVerdict env.json (r.query.getD []) (firstLine r.body)
              (announced r.buffer) argType
          rw [← verdict_extractArgs (extractBody_buffer r)
            (extractQueryString_buffer r)]
          cases extractArgs env.json r.buffer argType with
          | error e => rfl
          | ok args => rfl

/-- A request that was stored has the text's headers and query. -/
theorem stored_of_parse {env : Env} {router found : Router} {q : Request}
    (h : parse env r.buffer router = .ok (q, found)) :
    q.query = r.query.getD []
      ∧ ∀ name, q.getHeader name = lastValue name r.headers := by
  rw [parse_buffer] at h
  obtain ⟨p, -, hp⟩ := Loads.bind_ok h
  obtain ⟨argType, -, hargType⟩ := Loads.bind_ok hp
  cases hargs : extractArgs env.json r.buffer argType with
  | error e =>
      rw [hargs] at hargType
      cases hargType
  | ok args =>
      rw [hargs] at hargType
      cases hargType
      refine ⟨rfl, fun name => ?_⟩
      have hlookup := lookup_headerMap r.headers ∅ name
      rw [AList.lookup_empty] at hlookup
      rw [Request.getHeader, lastValue]
      show ((headerMap r.headers ∅).lookup name).getD [] = _
      rw [hlookup]
      cases r.headers.reverse.lookup name <;> rfl

/-- No configured header key has an empty name. -/
theorem getKeyFunc_header {algo : XMLElement} {name : Bytes}
    {ipFallback : Bool}
    (h : (getKeyFunc algo).1 = .header name ipFallback) : name ≠ [] := by
  unfold getKeyFunc at h
  split at h
  next => cases h
  next key hkey =>
    dsimp only at h
    split at h
    next =>
      split at h
      next => cases h
      next hname =>
        cases h
        exact fun hnil => hname (by rw [hnil]; rfl)
    next =>
      split at h
      next => cases h
      next =>
        split at h
        next => cases h
        next => cases h

-- =============================================================== same reads

/-- The two read the same value for every spelling of a name. -/
def SameValues (r r' : RequestText) : Prop :=
  ∀ name, name ≠ [] → lastValue name r.headers = lastValue name r'.headers

theorem SameValues.makeKey (h : SameValues r r') {q q' : Request}
    (hquery : q.query = q'.query)
    (hq : ∀ name, q.getHeader name = lastValue name r.headers)
    (hq' : ∀ name, q'.getHeader name = lastValue name r'.headers)
    (algo : XMLElement) (ip : Bytes) :
    (getKeyFunc algo).1.makeKey ip q = (getKeyFunc algo).1.makeKey ip q' := by
  have hsame : ∀ name, name ≠ [] → q.getHeader name = q'.getHeader name := by
    intro name hname
    rw [hq, hq', h name hname]
  cases hkey : (getKeyFunc algo).1 with
  | ip => rfl
  | header name ipFallback =>
      rw [KeyFunc.makeKey, KeyFunc.makeKey,
        hsame name (getKeyFunc_header hkey)]
  | xff ipFallback =>
      rw [KeyFunc.makeKey, KeyFunc.makeKey, hsame _ (by decide)]
  | query ipFallback => rw [KeyFunc.makeKey, KeyFunc.makeKey, hquery]

/-- Where both read the same and announce the same, they meet the same
decisions. -/
theorem sameDecisions_of_same (hsame : SameButCase r r')
    (hvalues : SameValues r r')
    (hkind : announced r.buffer = announced r'.buffer) :
    SameDecisions r.buffer r'.buffer := by
  refine ⟨fun env router => ?_, ?_, ?_⟩
  · rw [verdict_parse, verdict_parse, hsame.path, hsame.method, hsame.query,
      hsame.body, hkind]
  · intro env router q q' found found' hq hq'
    obtain ⟨hquery, hheader⟩ := stored_of_parse hq
    obtain ⟨hquery', hheader'⟩ := stored_of_parse hq'
    refine hvalues.makeKey ?_ hheader hheader'
    rw [hquery, hquery', hsame.query]
  · intro env router q q' found found' hq hq' entry
    obtain ⟨-, hheader⟩ := stored_of_parse hq
    obtain ⟨-, hheader'⟩ := stored_of_parse hq'
    have hcookie : q.getHeader (bytes "Cookie")
        = q'.getHeader (bytes "Cookie") := by
      rw [hheader, hheader', hvalues _ (by decide)]
    rw [validate, validate, hcookie]

-- ========================================================== where they part

/-- A table with one route, which asks for arguments of a type. -/
def oneRoute (path : Bytes) (m : Method) (argType : ArgType) : Router where
  endpoints := (∅ : AList fun _ : Bytes => Endpoint).insert path
    (({} : Endpoint).addMethod { m := m, accessRole := [], args := argType })
  errorPages := ∅

theorem parse_oneRoute (env : Env) (r : RequestText) (argType : ArgType) :
    parse env r.buffer (oneRoute r.path r.method argType)
      = (extractArgs env.json r.buffer argType).map fun args =>
          (requestOf r r.path args, oneRoute r.path r.method argType) := by
  have hmem : r.path ∈ (oneRoute r.path r.method argType).endpoints :=
    AList.mem_insert _ |>.mpr (Or.inl rfl)
  have hlookup : (oneRoute r.path r.method argType).getEndpoint
      env.fileExists r.path
        = .ok (r.path, oneRoute r.path r.method argType) := by
    rw [Router.getEndpoint, if_pos hmem]
    rfl
  have hderef : (oneRoute r.path r.method argType).deref r.path
      = some (({} : Endpoint).addMethod
        { m := r.method, accessRole := [], args := argType }) :=
    AList.lookup_insert _
  have hargType : (({} : Endpoint).addMethod
      { m := r.method, accessRole := [], args := argType }).getArgType
        r.method = .ok argType := by
    rw [Endpoint.getArgType, Endpoint.field, Endpoint.addMethod,
      AList.lookup_insert]
  rw [parse_buffer, hlookup]
  show Except.bind (Endpoint.getArgType
    (((oneRoute r.path r.method argType).deref r.path).getD {}) r.method) _
      = _
  rw [hderef, Option.getD_some, hargType]
  rfl

theorem verdict_oneRoute (env : Env) (r : RequestText) (argType : ArgType) :
    verdict (parse env r.buffer (oneRoute r.path r.method argType))
      = argsVerdict env.json (r.query.getD []) (firstLine r.body)
          (announced r.buffer) argType := by
  rw [parse_oneRoute, ← verdict_extractArgs (extractBody_buffer r)
    (extractQueryString_buffer r)]
  cases extractArgs env.json r.buffer argType with
  | error e => rfl
  | ok args => rfl

/-- A limiter keyed by a header. -/
def headerKey (name : Bytes) : XMLElement :=
  .mk (bytes "RateLimit") [] [.mk (bytes "Key")
    [(bytes "type", bytes "header"), (bytes "name", name),
      (bytes "fallback", bytes "error")] []]

theorem getKeyFunc_headerKey {name : Bytes} (h : name ≠ []) :
    (getKeyFunc (headerKey name)).1 = .header name false := by
  have hname : name.isEmpty = false := List.isEmpty_eq_false_iff.mpr h
  show (if name.isEmpty then (KeyFunc.ip, true)
    else (.header name false, false)).1 = _
  rw [hname]
  rfl

/-- The key of such a limiter tells the value. -/
theorem value_of_makeKey {name ip : Bytes} {q q' : Request}
    (h : (KeyFunc.header name false).makeKey ip q
      = (KeyFunc.header name false).makeKey ip q') :
    q.getHeader name = q'.getHeader name := by
  rw [KeyFunc.makeKey, KeyFunc.makeKey] at h
  generalize q.getHeader name = value at h ⊢
  generalize q'.getHeader name = value' at h ⊢
  cases value with
  | nil =>
      cases value' with
      | nil => rfl
      | cons b rest => cases h
  | cons b rest =>
      cases value' with
      | nil => cases h
      | cons b' rest' => exact Except.ok.inj h

/-- A table with a route that asks for JSON, and one with a route that
asks for a form, tell the kinds of bodies apart. -/
theorem kind_of_verdicts {query query' body body' : Bytes}
    {kind kind' : BodyKind}
    (hjson : argsVerdict (fun _ => .ok) query body kind .bodyJson
      = argsVerdict (fun _ => .ok) query' body' kind' .bodyJson)
    (hform : argsVerdict (fun _ => .ok) query body kind .bodyUrl
      = argsVerdict (fun _ => .ok) query' body' kind' .bodyUrl) :
    kind = kind' := by
  have hchecked : ∀ b : Bytes,
      formVerdict b ≠ .error .unsupportedMediaType := by
    intro b
    unfold formVerdict
    split
    · exact fun h => by cases h
    · exact fun h => absurd (Except.error.inj h) (by decide)
  cases kind with
  | json =>
      cases kind' with
      | json => rfl
      | form => cases hjson
      | other => cases hjson
  | form =>
      cases kind' with
      | json => cases hjson
      | form => rfl
      | other => exact absurd hform (hchecked body)
  | other =>
      cases kind' with
      | json => cases hjson
      | form => exact absurd hform.symm (hchecked body')
      | other => rfl

/-- Requests that meet the same decisions are read the same. -/
theorem same_of_sameDecisions (hsame : SameButCase r r')
    (h : SameDecisions r.buffer r'.buffer) :
    SameValues r r' ∧ announced r.buffer = announced r'.buffer := by
  have hroute : ∀ argType, oneRoute r.path r.method argType
      = oneRoute r'.path r'.method argType := fun argType => by
    rw [hsame.path, hsame.method]
  constructor
  · intro name hname
    have hq := parse_oneRoute {} r .none
    have hq' := parse_oneRoute {} r' .none
    rw [← hroute] at hq'
    have hkey := h.keys {} _ _ _ _ _ hq hq' (headerKey name) []
    rw [getKeyFunc_headerKey hname] at hkey
    have hvalue := value_of_makeKey hkey
    rw [(stored_of_parse hq).2, (stored_of_parse hq').2] at hvalue
    exact hvalue
  · have hverdict : ∀ argType,
        argsVerdict (fun _ => .ok) (r.query.getD []) (firstLine r.body)
            (announced r.buffer) argType
          = argsVerdict (fun _ => .ok) (r'.query.getD [])
            (firstLine r'.body) (announced r'.buffer) argType := by
      intro argType
      have hparser := h.parser { json := fun _ => .ok }
        (oneRoute r.path r.method argType)
      rw [verdict_oneRoute, hroute, verdict_oneRoute] at hparser
      exact hparser
    exact kind_of_verdicts (hverdict .bodyJson) (hverdict .bodyUrl)

/-- For every two requests that differ in the letter case of header names
only: they meet the same decisions exactly if every spelling of a name
reads the same value in both and both announce the same kind of body. -/
theorem header_case_iff (hsame : SameButCase r r') :
    SameDecisions r.buffer r'.buffer
      ↔ SameValues r r' ∧ announced r.buffer = announced r'.buffer := by
  constructor
  · exact same_of_sameDecisions hsame
  · intro h
    exact sameDecisions_of_same hsame h.1 h.2

/-- A request with one header line, and no body. -/
def oneHeader (name value : Bytes)
    (hname : 13 ∉ name ∧ 10 ∉ name ∧ ¬ headerSplitter <:+: name)
    (hvalue : 13 ∉ value ∧ 10 ∉ value) : RequestText where
  method := .get
  path := bytes "/search"
  query := none
  version := bytes "HTTP/1.1"
  headers := [(name, value)]
  body := []
  method_ok := by decide
  path_ok := by decide
  query_ok := by
    intro q hq
    cases hq
  version_ok := by decide
  name_ok := by
    intro line hline
    obtain rfl := List.mem_singleton.mp hline
    exact hname
  value_ok := by
    intro line hline
    obtain rfl := List.mem_singleton.mp hline
    exact hvalue

/-- Two spellings of its name. -/
theorem sameButCase_oneHeader {name name' value : Bytes}
    {hname : 13 ∉ name ∧ 10 ∉ name ∧ ¬ headerSplitter <:+: name}
    {hname' : 13 ∉ name' ∧ 10 ∉ name' ∧ ¬ headerSplitter <:+: name'}
    {hvalue : 13 ∉ value ∧ 10 ∉ value}
    (h : name.map toLower = name'.map toLower) :
    SameButCase (oneHeader name value hname hvalue)
      (oneHeader name' value hname' hvalue) where
  method := rfl
  path := rfl
  query := rfl
  version := rfl
  headers := .cons ⟨h, rfl⟩ .nil
  body := rfl

/-- A request that gives its key under two names. -/
def bothNames (name name' : Bytes)
    (hname : 13 ∉ name ∧ 10 ∉ name ∧ ¬ headerSplitter <:+: name)
    (hname' : 13 ∉ name' ∧ 10 ∉ name' ∧ ¬ headerSplitter <:+: name') :
    RequestText where
  method := .get
  path := bytes "/search"
  query := none
  version := bytes "HTTP/1.1"
  headers := [(name, bytes "k1"), (name', bytes "k1")]
  body := []
  method_ok := by decide
  path_ok := by decide
  query_ok := by
    intro q hq
    cases hq
  version_ok := by decide
  name_ok := by
    intro line hline
    rcases List.mem_cons.mp hline with rfl | hline
    · exact hname
    · obtain rfl := List.mem_singleton.mp hline
      exact hname'
  value_ok := by
    have hvalue : 13 ∉ bytes "k1" ∧ 10 ∉ bytes "k1" :=
      ⟨by decide, by decide⟩
    intro line hline
    rcases List.mem_cons.mp hline with rfl | hline
    · exact hvalue
    · obtain rfl := List.mem_singleton.mp hline
      exact hvalue

/-- The two names in either order. -/
theorem sameButCase_bothNames {name name' : Bytes}
    {hname : 13 ∉ name ∧ 10 ∉ name ∧ ¬ headerSplitter <:+: name}
    {hname' : 13 ∉ name' ∧ 10 ∉ name' ∧ ¬ headerSplitter <:+: name'}
    (h : name.map toLower = name'.map toLower) :
    SameButCase (bothNames name name' hname hname')
      (bothNames name' name hname' hname) where
  method := rfl
  path := rfl
  query := rfl
  version := rfl
  headers := .cons ⟨h, rfl⟩ (.cons ⟨h.symm, rfl⟩ .nil)
  body := rfl

theorem sameValues_bothNames {name name' : Bytes}
    {hname : 13 ∉ name ∧ 10 ∉ name ∧ ¬ headerSplitter <:+: name}
    {hname' : 13 ∉ name' ∧ 10 ∉ name' ∧ ¬ headerSplitter <:+: name'} :
    SameValues (bothNames name name' hname hname')
      (bothNames name' name hname' hname) := by
  intro spelling _
  show (List.lookup spelling [(name', bytes "k1"), (name, bytes "k1")]).getD
      [] = (List.lookup spelling [(name, bytes "k1"),
        (name', bytes "k1")]).getD []
  cases hfirst : spelling == name <;> cases hlast : spelling == name' <;>
    simp only [List.lookup_cons, hfirst, hlast]

/-- The documentation's key in both spellings. -/
def titleFirst : RequestText :=
  bothNames (bytes "X-Api-Key") (bytes "x-api-key") (by decide) (by decide)

/-- And the other way round. -/
def lowerFirst : RequestText :=
  bothNames (bytes "x-api-key") (bytes "X-Api-Key") (by decide) (by decide)

/-- Either spelling reads the same value in both, and they meet the same
decisions. -/
theorem header_case_both :
    SameButCase titleFirst lowerFirst
      ∧ lastValue (bytes "x-api-key") titleFirst.headers = bytes "k1"
      ∧ SameDecisions titleFirst.buffer lowerFirst.buffer := by
  have hsame : SameButCase titleFirst lowerFirst :=
    sameButCase_bothNames (by decide)
  exact ⟨hsame, by decide,
    (header_case_iff hsame).mpr ⟨sameValues_bothNames, by decide⟩⟩

/-- The key of the documentation, as its text spells it. -/
def titleCase : RequestText :=
  oneHeader (bytes "X-Api-Key") (bytes "k1") (by decide) (by decide)

/-- And as its example does. -/
def lowerCase : RequestText :=
  oneHeader (bytes "x-api-key") (bytes "k1") (by decide) (by decide)

/-- The two do not meet the same decisions: a limiter keyed by
`x-api-key` finds no key in the first. -/
theorem title_case_not_found :
    SameButCase titleCase lowerCase
      ∧ ¬ SameDecisions titleCase.buffer lowerCase.buffer := by
  have hsame : SameButCase titleCase lowerCase :=
    sameButCase_oneHeader (by decide)
  refine ⟨hsame, fun h => ?_⟩
  have hvalue : lastValue (bytes "x-api-key") titleCase.headers
      = lastValue (bytes "x-api-key") lowerCase.headers :=
    (same_of_sameDecisions hsame h).1 _ (by decide)
  exact absurd hvalue (by decide)

end CgiWebServer
