/-
What the parser makes of the bytes it has read.

`parse` is `Parser::process` without its transaction: the request it
stores and the table its lookups leave, or the exception it throws. The
parser does what `parse` says, whatever its `next` is (`parser_stores`,
`parser_throws`), so that a fact about all byte strings is one about
extractors.

# The refusals

Every exception but one carries a client status. An extractor's is 400,
an unknown endpoint's 404, a missing method's 405; the argument check's
is 400 or 415, or it is `nlohmann`'s own, of a number no double holds,
which `is_valid_json` does not catch (`argsFail_extractArgs`).
-/
import CgiWebServer.Proofs.Gate

namespace CgiWebServer

open Process

-- ============================================================== the parse

section Parse

variable (env : Env)

/-- `Parser::process` on a buffer, with the route table it meets. -/
def parse (buffer : Bytes) (router : Router) :
    Except Exn (Request × Router) := do
  let endpointUrl ← extractEndpoint buffer
  let (endpoint, router) ← router.getEndpoint env.fileExists endpointUrl
  let m ← extractMethod buffer
  let argType ← ((router.deref endpoint).getD {}).getArgType m
  let args ← extractArgs env.json buffer argType
  let headers ← extractHeaders buffer
  let body ← extractBody buffer
  let query ← extractQueryString buffer
  return ({
    endpointUrl := endpointUrl
    endpoint := some endpoint
    method := m
    args := args
    headers := headers
    body := body
    query := query
    route := some { endpoint := endpoint, method := m } }, router)

/-- The buffer's endpoint is known, and its lookup leaves `router'`. -/
structure Found (buffer : Bytes) (router : Router) (url : Bytes)
    (router' : Router) : Prop where
  endpoint : extractEndpoint buffer = .ok url
  lookup : router.getEndpoint env.fileExists url = .ok (url, router')

/-- The endpoint has an entry for the buffer's method, with this type of
arguments. -/
structure Asked (buffer : Bytes) (router : Router) (url : Bytes)
    (router' : Router) (m : Method) (argType : ArgType) : Prop where
  found : Found env buffer router url router'
  method : extractMethod buffer = .ok m
  argType : ∃ ep, router'.deref url = some ep
    ∧ ep.getArgType m = .ok argType

end Parse

variable {env : Env} {buffer : Bytes} {router router' : Router}
  {url : Bytes} {m : Method} {argType : ArgType} {e : Exn}

/-- An `HTTPException` with this status. -/
def Refuses (status : Code) (e : Exn) : Prop :=
  ∃ ex, e = .http ex ∧ ex.response.status = status

theorem Refuses.unique {status status' : Code} {e : Exn}
    (h : Refuses status e) (h' : Refuses status' e) : status = status' := by
  obtain ⟨ex, rfl, rfl⟩ := h
  obtain ⟨ex', hsame, rfl⟩ := h'
  cases hsame
  rfl

theorem Plain.refuses {status : Code} (h : Plain status e) :
    Refuses status e := by
  obtain ⟨message, rfl⟩ := h
  exact ⟨_, rfl, rfl⟩

-- ========================================================== the arguments

/-- The arguments are looked for in the body. -/
def ReadsBody (buffer : Bytes) : ArgType → Prop
  | .none | .queryString => False
  | .any => extractQueryString buffer = .ok []
  | .bodyAny | .bodyJson | .bodyUrl => True

/-- The body's JSON is parsed. -/
structure ChecksJson (buffer : Bytes) (argType : ArgType) (body : Bytes) :
    Prop where
  reads : ReadsBody buffer argType
  argType : argType ≠ .bodyUrl
  body : extractBody buffer = .ok body
  contentType : getContentType buffer = some jsonType

/-- The body is checked for a form. -/
structure ChecksForm (buffer : Bytes) (argType : ArgType) (body : Bytes) :
    Prop where
  reads : ReadsBody buffer argType
  argType : argType ≠ .bodyJson
  body : extractBody buffer = .ok body
  contentType : getContentType buffer = some formType

/-- The one content type the argument check goes on with. -/
def ArgType.desired : ArgType → Option Bytes
  | .bodyJson => some jsonType
  | .bodyUrl => some formType
  | .none | .any | .bodyAny | .queryString => Option.none

/-- The body is there, and not of the one content type. -/
structure MistypedArgs (buffer : Bytes) (argType : ArgType) : Prop where
  body : ∃ body, extractBody buffer = .ok body
  contentType : ∃ desired, argType.desired = some desired
    ∧ getContentType buffer ≠ some desired

/-- The body is wanted and is not there, or is not what its content type
says. -/
inductive MalformedArgs (json : Bytes → JsonResult) (buffer : Bytes)
    (argType : ArgType) : Prop
  | noBody {e : Exn} : ReadsBody buffer argType →
      extractBody buffer = .error e → MalformedArgs json buffer argType
  | json {body : Bytes} : ChecksJson buffer argType body →
      json body = .parseError → MalformedArgs json buffer argType
  | form {body : Bytes} : ChecksForm buffer argType body →
      isValidUrlForm body = false → MalformedArgs json buffer argType

section Args

variable {json : Bytes → JsonResult} {body : Bytes}

theorem jsonType_ne_formType : jsonType ≠ formType := by decide

/-- `body_any` on a body that claims to be JSON. -/
theorem bodyAny_of_json (hbody : extractBody buffer = .ok body)
    (hct : getContentType buffer = some jsonType) :
    bodyAny json buffer
      = (isValidJson json body).bind fun valid =>
          if valid then .ok body
          else .error (.http (.mk' .badRequest
            (bytes "invalid argument format in request body, client claimed="
              ++ jsonType) ∅)) := by
  rw [bodyAny, hbody]
  simp only [bind, Except.bind, hct, if_true, jsonType_ne_formType,
    decide_false, Bool.false_and, Bool.false_eq_true, if_false, true_or,
    pure, Except.pure]

/-- `body_any` on a body that claims to be a form. -/
theorem bodyAny_of_form (hbody : extractBody buffer = .ok body)
    (hct : getContentType buffer = some formType) :
    bodyAny json buffer
      = if isValidUrlForm body then .ok body
        else .error (.http (.mk' .badRequest
          (bytes "invalid argument format in request body, client claimed="
            ++ formType) ∅)) := by
  rw [bodyAny, hbody]
  simp only [bind, Except.bind, hct, jsonType_ne_formType.symm, if_false,
    decide_true, Bool.true_and, Bool.false_eq_true, or_true, if_true,
    pure, Except.pure]

/-- `body_any` on any other body. -/
theorem bodyAny_of_other (hbody : extractBody buffer = .ok body)
    (hjson : getContentType buffer ≠ some jsonType)
    (hform : getContentType buffer ≠ some formType) :
    bodyAny json buffer = .ok body := by
  rw [bodyAny, hbody]
  cases hct : getContentType buffer with
  | none => rfl
  | some contentType =>
      rw [hct] at hjson hform
      have hj : contentType ≠ jsonType := fun h => hjson (congrArg some h)
      have hf : contentType ≠ formType := fun h => hform (congrArg some h)
      simp only [bind, Except.bind, hj, hf, if_false, decide_false,
        Bool.false_and, Bool.false_eq_true, or_self, pure, Except.pure]

/-- `get_args` without a body. -/
theorem getArgs_of_noBody {desired : Bytes}
    {filter : Bytes → Except Exn Bool}
    (hbody : extractBody buffer = .error e) :
    getArgs buffer desired filter = .error e := by
  rw [getArgs, hbody]
  rfl

/-- `get_args` on a body of the desired type. -/
theorem getArgs_of_desired {desired : Bytes}
    {filter : Bytes → Except Exn Bool}
    (hbody : extractBody buffer = .ok body)
    (hct : getContentType buffer = some desired) :
    getArgs buffer desired filter
      = (filter body).bind fun valid =>
          if valid then .ok body
          else .error (.http (.mk' .badRequest
            (bytes "invalid `" ++ desired ++ bytes "` body") ∅)) := by
  rw [getArgs, hbody]
  simp only [bind, Except.bind, hct, ne_eq, not_true_eq_false, if_false,
    pure, Except.pure]

/-- `get_args` on a body of another type, or of none. -/
theorem getArgs_of_other {desired : Bytes}
    {filter : Bytes → Except Exn Bool}
    (hbody : extractBody buffer = .ok body)
    (hct : getContentType buffer ≠ some desired) :
    ∃ e, getArgs buffer desired filter = .error e
      ∧ Refuses .unsupportedMediaType e := by
  rw [getArgs, hbody]
  cases hfound : getContentType buffer with
  | none => exact ⟨_, rfl, _, rfl, rfl⟩
  | some contentType =>
      rw [hfound] at hct
      have hne : contentType ≠ desired := fun h => hct (congrArg some h)
      simp only [bind, Except.bind, ne_eq, hne, not_false_eq_true, if_true]
      exact ⟨_, rfl, _, rfl, rfl⟩

/-- The number no double holds. -/
def jsonOverflow : Exn := .std (bytes "out_of_range")

/-- How an argument check fails. -/
inductive ArgsFail (json : Bytes → JsonResult) (buffer : Bytes)
    (argType : ArgType) (e : Exn) : Prop
  | malformed : Refuses .badRequest e →
      MalformedArgs json buffer argType → ArgsFail json buffer argType e
  | unsupported : Refuses .unsupportedMediaType e →
      MistypedArgs buffer argType → ArgsFail json buffer argType e
  | overflow {body : Bytes} : e = jsonOverflow →
      ChecksJson buffer argType body → json body = .outOfRange →
      ArgsFail json buffer argType e

/-- A failure of `is_valid_json` and the throw behind it. -/
theorem argsFail_of_json (hchecks : ChecksJson buffer argType body)
    {message : Bytes}
    (h : ((isValidJson json body).bind fun valid =>
      if valid then Except.ok body
      else .error (.http (.mk' .badRequest message ∅))) = .error e) :
    ArgsFail json buffer argType e := by
  unfold isValidJson at h
  cases hresult : json body with
  | ok =>
      rw [hresult] at h
      cases h
  | parseError =>
      rw [hresult] at h
      cases h
      exact .malformed ⟨_, rfl, rfl⟩ (.json hchecks hresult)
  | outOfRange =>
      rw [hresult] at h
      cases h
      exact .overflow rfl hchecks hresult

theorem argsFail_bodyAny (hreads : ReadsBody buffer argType)
    (hjson : argType ≠ .bodyJson) (hurl : argType ≠ .bodyUrl)
    (h : bodyAny json buffer = .error e) :
    ArgsFail json buffer argType e := by
  cases hbody : extractBody buffer with
  | error e' =>
      rw [bodyAny, hbody] at h
      cases h
      exact .malformed (plain_extractBody hbody).refuses (.noBody hreads hbody)
  | ok body =>
      by_cases hct : getContentType buffer = some jsonType
      · rw [bodyAny_of_json hbody hct] at h
        exact argsFail_of_json ⟨hreads, hurl, hbody, hct⟩ h
      · by_cases hform : getContentType buffer = some formType
        · rw [bodyAny_of_form hbody hform] at h
          split at h
          next => cases h
          next hinvalid =>
            cases h
            exact .malformed ⟨_, rfl, rfl⟩ (.form
              ⟨hreads, hjson, hbody, hform⟩
              (Bool.eq_false_iff.mpr hinvalid))
        · rw [bodyAny_of_other hbody hct hform] at h
          cases h

theorem argsFail_extractArgs {query : Bytes}
    (hquery : extractQueryString buffer = .ok query)
    (h : extractArgs json buffer argType = .error e) :
    ArgsFail json buffer argType e := by
  cases argType with
  | none => cases h
  | queryString => exact absurd (hquery.symm.trans h) (by simp)
  | any =>
      unfold extractArgs argsAny at h
      rw [hquery] at h
      -- The body is asked for only where there is no query string.
      cases query with
      | nil => exact argsFail_bodyAny hquery (by decide) (by decide) h
      | cons b rest => cases h
  | bodyAny => exact argsFail_bodyAny trivial (by decide) (by decide) h
  | bodyJson =>
      change getArgs buffer jsonType (isValidJson json) = .error e at h
      cases hbody : extractBody buffer with
      | error e' =>
          rw [getArgs_of_noBody hbody] at h
          cases h
          exact .malformed (plain_extractBody hbody).refuses
            (.noBody trivial hbody)
      | ok body =>
          by_cases hct : getContentType buffer = some jsonType
          · rw [getArgs_of_desired hbody hct] at h
            exact argsFail_of_json ⟨trivial, by decide, hbody, hct⟩ h
          · obtain ⟨e', he', hrefuses⟩ := getArgs_of_other hbody hct
            rw [he'] at h
            cases h
            exact .unsupported hrefuses ⟨⟨body, hbody⟩, _, rfl, hct⟩
  | bodyUrl =>
      change getArgs buffer formType (fun b => pure (isValidUrlForm b))
        = .error e at h
      cases hbody : extractBody buffer with
      | error e' =>
          rw [getArgs_of_noBody hbody] at h
          cases h
          exact .malformed (plain_extractBody hbody).refuses
            (.noBody trivial hbody)
      | ok body =>
          by_cases hct : getContentType buffer = some formType
          · rw [getArgs_of_desired hbody hct] at h
            cases hvalid : isValidUrlForm body with
            | true =>
                rw [hvalid] at h
                cases h
            | false =>
                rw [hvalid] at h
                cases h
                exact .malformed ⟨_, rfl, rfl⟩ (.form
                  ⟨trivial, by decide, hbody, hct⟩ hvalid)
          · obtain ⟨e', he', hrefuses⟩ := getArgs_of_other hbody hct
            rw [he'] at h
            cases h
            exact .unsupported hrefuses ⟨⟨body, hbody⟩, _, rfl, hct⟩

/-- Arguments that are read as `body_any` reads them. -/
theorem extractArgs_of_reads (hreads : ReadsBody buffer argType)
    (hjson : argType ≠ .bodyJson) (hurl : argType ≠ .bodyUrl) :
    extractArgs json buffer argType = bodyAny json buffer := by
  cases argType with
  | none => exact hreads.elim
  | queryString => exact hreads.elim
  | any =>
      have hquery : extractQueryString buffer = .ok [] := hreads
      rw [extractArgs, argsAny, hquery]
      rfl
  | bodyAny => rfl
  | bodyJson => exact absurd rfl hjson
  | bodyUrl => exact absurd rfl hurl

variable (json) in
/-- A body whose JSON is parsed, by what the parse does. -/
theorem extractArgs_of_checksJson (h : ChecksJson buffer argType body) :
    ∃ message, extractArgs json buffer argType
      = (isValidJson json body).bind fun valid =>
          if valid then .ok body
          else .error (.http (.mk' .badRequest message ∅)) := by
  by_cases hjson : argType = .bodyJson
  · subst hjson
    exact ⟨_, getArgs_of_desired h.body h.contentType⟩
  · rw [extractArgs_of_reads h.reads hjson h.argType]
    exact ⟨_, bodyAny_of_json h.body h.contentType⟩

/-- A number no double holds. -/
theorem extractArgs_of_overflow (h : ChecksJson buffer argType body)
    (hresult : json body = .outOfRange) :
    extractArgs json buffer argType = .error jsonOverflow := by
  obtain ⟨message, hargs⟩ := extractArgs_of_checksJson json h
  rw [hargs, isValidJson, hresult]
  rfl

end Args

-- ================================================================ outcomes

/-- Where the blank line was found there is a body. -/
theorem extractBody_of_headers {headers : Headers}
    (h : extractHeaders buffer = .ok headers) :
    ∃ body, extractBody buffer = .ok body := by
  unfold extractHeaders at h
  unfold extractBody
  cases hblank : Scan.find crlfcrlf buffer with
  | none =>
      rw [hblank] at h
      cases h
  | some start => exact ⟨_, rfl⟩

/-- Where there is an endpoint there is a query string. -/
theorem extractQueryString_of_endpoint
    (h : extractEndpoint buffer = .ok url) :
    ∃ query, extractQueryString buffer = .ok query := by
  cases htarget : getRequestTarget buffer with
  | error e =>
      rw [extractEndpoint, htarget] at h
      cases h
  | ok target => exact ⟨_, extractQueryString_of_target htarget⟩

variable (env) in
/-- What the parser fails at. -/
inductive ParseFails (buffer : Bytes) (router : Router) (e : Exn) : Prop
  | noTarget : getRequestTarget buffer = .error e →
      ParseFails buffer router e
  | unknown {url : Bytes} : extractEndpoint buffer = .ok url →
      router.getEndpoint env.fileExists url = .error e →
      ParseFails buffer router e
  | noMethod {url : Bytes} {router' : Router} :
      Found env buffer router url router' →
      extractMethod buffer = .error e → ParseFails buffer router e
  | notAllowed {url : Bytes} {router' : Router} {m : Method}
      {ep : Endpoint} :
      Found env buffer router url router' → extractMethod buffer = .ok m →
      router'.deref url = some ep → ep.getArgType m = .error e →
      ParseFails buffer router e
  | badArgs {url : Bytes} {router' : Router} {m : Method}
      {argType : ArgType} :
      Asked env buffer router url router' m argType →
      extractArgs env.json buffer argType = .error e →
      ParseFails buffer router e
  | badHeaders {url : Bytes} {router' : Router} {m : Method}
      {argType : ArgType} {args : Bytes} :
      Asked env buffer router url router' m argType →
      extractArgs env.json buffer argType = .ok args →
      extractHeaders buffer = .error e → ParseFails buffer router e

variable (env) in
/-- What the parser reads off a buffer, where nothing fails. -/
structure ParseReads (buffer : Bytes) (router : Router)
    (request : Request) (router' : Router) : Prop where
  asked : ∃ argType,
    Asked env buffer router request.endpointUrl router' request.method
        argType
      ∧ extractArgs env.json buffer argType = .ok request.args
  headers : extractHeaders buffer = .ok request.headers
  body : extractBody buffer = .ok request.body
  query : extractQueryString buffer = .ok request.query
  endpoint : request.endpoint = some request.endpointUrl
  route : request.route
    = some { endpoint := request.endpointUrl, method := request.method }

/-- One or the other. -/
theorem parse_cases (env : Env) (buffer : Bytes) (router : Router) :
    (∃ e, ParseFails env buffer router e)
      ∨ ∃ request router', ParseReads env buffer router request router' := by
  -- One level for each reader, in the order of parse; what it has read is
  -- what the next one needs.
  cases htarget : getRequestTarget buffer with
  | error e => exact Or.inl ⟨e, .noTarget htarget⟩
  | ok target =>
      obtain ⟨url, hurl⟩ : ∃ url, extractEndpoint buffer = .ok url :=
        ⟨_, extractEndpoint_of_target htarget⟩
      obtain ⟨query, hquery⟩ := extractQueryString_of_endpoint hurl
      cases hlookup : router.getEndpoint env.fileExists url with
      | error e => exact Or.inl ⟨e, .unknown hurl hlookup⟩
      | ok found =>
          obtain ⟨p, router'⟩ := found
          obtain ⟨rfl, -, hmem⟩ := grown_getEndpoint hlookup
          have hfound : Found env buffer router p router' := ⟨hurl, hlookup⟩
          cases hm : extractMethod buffer with
          | error e => exact Or.inl ⟨e, .noMethod hfound hm⟩
          | ok m =>
              obtain ⟨ep, hep⟩ := Option.isSome_iff_exists.mp
                (AList.lookup_isSome.mpr hmem)
              cases harg : ep.getArgType m with
              | error e => exact Or.inl ⟨e, .notAllowed hfound hm hep harg⟩
              | ok argType =>
                  have hasked : Asked env buffer router p router' m argType :=
                    ⟨hfound, hm, ep, hep, harg⟩
                  cases hargs : extractArgs env.json buffer argType with
                  | error e => exact Or.inl ⟨e, .badArgs hasked hargs⟩
                  | ok args =>
                      cases hheaders : extractHeaders buffer with
                      | error e =>
                          exact Or.inl ⟨e, .badHeaders hasked hargs hheaders⟩
                      | ok headers =>
                          obtain ⟨body, hbody⟩ :=
                            extractBody_of_headers hheaders
                          exact Or.inr ⟨⟨m, query, args, p, some p,
                            some ⟨p, m⟩, headers, body⟩, router',
                            ⟨argType, hasked, hargs⟩, hheaders, hbody,
                            hquery, rfl, rfl⟩

-- ============================================================== the parser

theorem lift_bind_ok {α β : Type} {r : Except Exn α} {x : α}
    (h : r = .ok x) (f : α → Act β) (s : Txn) :
    (lift r >>= f) s = f x s := by
  rw [h]
  rfl

theorem lift_bind_error {α β : Type} {r : Except Exn α}
    (h : r = .error e) (f : α → Act β) (s : Txn) :
    (lift r >>= f) s = (.error (.raised e), s) := by
  rw [h]
  rfl

theorem derefPtr_bind_some {α β : Type} {p : Option α} {x : α}
    (h : p = some x) (f : α → Act β) (s : Txn) :
    (derefPtr p >>= f) s = f x s := by
  rw [h]
  rfl

theorem getEndpointAct_apply {p : EndpointPtr} {s : Txn}
    (h : s.router.getEndpoint env.fileExists url = .ok (p, router')) :
    getEndpointAct env url s = (.ok p, { s with router := router' }) :=
  lift_bind_ok h _ s

section Parser

variable (hread : env.readEc = .ok) (txn : Txn) (next : Act Unit)
include hread

/-- The parser up to the lookup of its endpoint. -/
theorem parser_of_found (hfound : Found env env.buffer txn.router url router') :
    parserProcess env next txn = (do
      let m ← lift (extractMethod env.buffer)
      let txn ← Proc.get
      let ep ← derefPtr (txn.router.deref url)
      let argType ← lift (ep.getArgType m)
      let args ← lift (extractArgs env.json env.buffer argType)
      let headers ← lift (extractHeaders env.buffer)
      let body ← lift (extractBody env.buffer)
      let query ← lift (extractQueryString env.buffer)
      let route ← getEndpointMethodAct env url m
      Proc.modify fun txn => { txn with
        request := {
          endpointUrl := url
          endpoint := some url
          method := m
          args := args
          headers := headers
          body := body
          query := query
          route := some route } }
      next) { txn with router := router' } := by
  rw [parserProcess, if_neg (not_not_intro hread), lift_bind_ok hfound.endpoint,
    Proc.bind_of_ok (getEndpointAct_apply hfound.lookup)]

/-- The parser up to its argument check. -/
theorem parser_of_asked
    (h : Asked env env.buffer txn.router url router' m argType) :
    parserProcess env next txn = (do
      let args ← lift (extractArgs env.json env.buffer argType)
      let headers ← lift (extractHeaders env.buffer)
      let body ← lift (extractBody env.buffer)
      let query ← lift (extractQueryString env.buffer)
      let route ← getEndpointMethodAct env url m
      Proc.modify fun txn => { txn with
        request := {
          endpointUrl := url
          endpoint := some url
          method := m
          args := args
          headers := headers
          body := body
          query := query
          route := some route } }
      next) { txn with router := router' } := by
  obtain ⟨ep, hep, harg⟩ := h.argType
  rw [parser_of_found hread txn next h.found, lift_bind_ok h.method,
    Proc.bind_of_ok (Proc.get_apply _), derefPtr_bind_some hep,
    lift_bind_ok harg]

omit hread in
/-- The second lookup finds what the first has left. -/
theorem getEndpointMethodAct_apply
    (h : Asked env env.buffer txn.router url router' m argType) :
    getEndpointMethodAct env url m { txn with router := router' }
      = (.ok { endpoint := url, method := m },
          { txn with router := router' }) := by
  obtain ⟨ep, hep, harg⟩ := h.argType
  obtain ⟨-, -, hmem⟩ := grown_getEndpoint h.found.lookup
  obtain ⟨entry, hentry, -⟩ := Endpoint.field_ok harg
  have hagain : router'.getEndpoint env.fileExists url
      = .ok (url, router') := if_pos hmem
  have hmethod : ep.getMethod m = .ok entry := by
    rw [Endpoint.getMethod, Endpoint.field, hentry]
    rfl
  rw [getEndpointMethodAct, Proc.bind_of_ok (getEndpointAct_apply hagain),
    Proc.bind_of_ok (Proc.get_apply _), hep]
  show (lift (ep.getMethod m) >>= _) _ = _
  rw [lift_bind_ok hmethod]
  rfl

/-- Where the parse fails, the parser throws. -/
theorem parser_throws (h : ParseFails env env.buffer txn.router e) :
    ∃ router', ∀ next, parserProcess env next txn
      = (.error (.raised e), { txn with router := router' }) := by
  cases h with
  | noTarget h =>
      have hurl : extractEndpoint env.buffer = .error e := by
        rw [extractEndpoint, h]
        rfl
      refine ⟨txn.router, fun next => ?_⟩
      rw [parserProcess, if_neg (not_not_intro hread), lift_bind_error hurl]
  | unknown hurl h =>
      refine ⟨txn.router, fun next => ?_⟩
      rw [parserProcess, if_neg (not_not_intro hread), lift_bind_ok hurl]
      exact Proc.bind_of_error (lift_bind_error h _ txn)
  | @noMethod url router' hfound h =>
      refine ⟨router', fun next => ?_⟩
      rw [parser_of_found hread txn next hfound, lift_bind_error h]
  | @notAllowed url router' m ep hfound hm hep h =>
      refine ⟨router', fun next => ?_⟩
      rw [parser_of_found hread txn next hfound, lift_bind_ok hm,
        Proc.bind_of_ok (Proc.get_apply _), derefPtr_bind_some hep,
        lift_bind_error h]
  | @badArgs url router' m argType hasked h =>
      refine ⟨router', fun next => ?_⟩
      rw [parser_of_asked hread txn next hasked, lift_bind_error h]
  | @badHeaders url router' m argType args hasked hargs h =>
      refine ⟨router', fun next => ?_⟩
      rw [parser_of_asked hread txn next hasked, lift_bind_ok hargs,
        lift_bind_error h]

/-- Where it does not, the parser stores the request and calls `next`. -/
theorem parser_stores {request : Request}
    (h : ParseReads env env.buffer txn.router request router') :
    parserProcess env next txn
      = next { txn with request := request, router := router' } := by
  obtain ⟨argType, hasked, hargs⟩ := h.asked
  rw [parser_of_asked hread txn next hasked, lift_bind_ok hargs,
    lift_bind_ok h.headers, lift_bind_ok h.body, lift_bind_ok h.query,
    Proc.bind_of_ok (getEndpointMethodAct_apply txn hasked)]
  have hrequest : ({
      endpointUrl := request.endpointUrl
      endpoint := some request.endpointUrl
      method := request.method
      args := request.args
      headers := request.headers
      body := request.body
      query := request.query
      route := some { endpoint := request.endpointUrl,
                      method := request.method } } : Request) = request := by
    rw [← h.endpoint, ← h.route]
  rw [hrequest]
  rfl

/-- A request the parser stores is what it reads off the buffer. -/
theorem parseReads_of_stores {request : Request} {router : Router}
    (hstores : ∀ next, parserProcess env next txn
      = next { txn with request := request, router := router }) :
    ParseReads env env.buffer txn.router request router := by
  rcases parse_cases env env.buffer txn.router with
    ⟨e, hfails⟩ | ⟨request', router', hreads⟩
  · obtain ⟨router', hthrows⟩ := parser_throws hread txn hfails
    have hsame := (hthrows (pure ())).symm.trans (hstores (pure ()))
    exact absurd (congrArg Prod.fst hsame) (by simp)
  · have hsame := (parser_stores hread txn (pure ()) hreads).symm.trans
      (hstores (pure ()))
    have hrequest : request' = request :=
      congrArg (fun result => result.2.request) hsame
    have hrouter : router' = router :=
      congrArg (fun result => result.2.router) hsame
    exact hrequest ▸ hrouter ▸ hreads

end Parser

end CgiWebServer
