/-
Whether a declared argument is there.

The argument check ends in data of the declared kind, or in a refusal
with 400 or 415, but for what it takes for data: a query string that is
not there is an empty one, and so is a body that is empty and claims
neither JSON nor a form. The JSON check can end in a third way, by the
exception of a number no double holds.
-/
import CgiWebServer.Proofs.RequestTarget

namespace CgiWebServer

open Scan

section Arguments

variable (json : Bytes → JsonResult) (buffer : Bytes)

/-- What stands behind the `?` of the target. -/
def BehindQuestion (args : Bytes) : Prop :=
  ∃ path, getRequestTarget buffer = .ok (path ++ 63 :: args) ∧ 63 ∉ path

/-- The body, in order if it claims to be JSON or a form. -/
structure CheckedBody (args : Bytes) : Prop where
  body : extractBody buffer = .ok args
  json : getContentType buffer = some jsonType → json args = .ok
  form : getContentType buffer = some formType → isValidUrlForm args = true

/-- Argument data of the declared kind. -/
def OfKind : ArgType → Bytes → Prop
  | .none, _ => True
  | .queryString, args => BehindQuestion buffer args
  | .bodyJson, args => extractBody buffer = .ok args
      ∧ getContentType buffer = some jsonType ∧ json args = .ok
  | .bodyUrl, args => extractBody buffer = .ok args
      ∧ getContentType buffer = some formType ∧ isValidUrlForm args = true
  | .bodyAny, args => CheckedBody json buffer args
  | .any, args => BehindQuestion buffer args
      ∨ extractQueryString buffer = .ok [] ∧ CheckedBody json buffer args

/-- Data of a kind, or a refusal with 400 or 415. -/
def EndsIn (kind : Bytes → Prop) : Except Exn Bytes → Prop
  | .ok args => args ≠ [] ∧ kind args
  | .error e => Refuses .badRequest e ∨ Refuses .unsupportedMediaType e

/-- The declared argument is provided or the request is refused: by the
argument check, and so in every request the parser stores for a route
with this declaration. -/
structure ProvidedOrRefused (argType : ArgType) : Prop where
  checked : EndsIn (OfKind json buffer argType)
    (extractArgs json buffer argType)
  stored : ∀ (env : Env) (txn : Txn), env.readEc = .ok →
    env.buffer = buffer → env.json = json →
    ∀ request router, (∀ next, parserProcess env next txn
      = next { txn with request := request, router := router }) →
    Asked env buffer txn.router request.endpointUrl router request.method
      argType →
    request.args ≠ [] ∧ OfKind json buffer argType request.args

/-- The target is there, with no query string behind its path or an
empty one. -/
def NoQuery : Prop :=
  ∃ target, getRequestTarget buffer = .ok target ∧ queryOf target = []

/-- The body is there, empty, and claims neither JSON nor a form. -/
structure EmptyBody : Prop where
  body : extractBody buffer = .ok []
  not_json : getContentType buffer ≠ some jsonType
  not_form : getContentType buffer ≠ some formType

/-- The argument is missing where nothing asks for it. -/
def Missing : ArgType → Prop
  | .none | .bodyJson | .bodyUrl => False
  | .queryString => NoQuery buffer
  | .bodyAny => EmptyBody buffer
  | .any => NoQuery buffer ∧ EmptyBody buffer

end Arguments

variable {json : Bytes → JsonResult} {buffer args body : Bytes}
  {argType : ArgType} {kind : Bytes → Prop}

-- =============================================================== the checks

/-- `is_valid_json` and the throw behind it. -/
theorem endsIn_checkJson {message : Bytes} :
    EndsIn kind ((isValidJson json body).bind fun valid =>
        if valid then .ok body
        else .error (.http (.mk' .badRequest message ∅)))
      ↔ json body ≠ .outOfRange
        ∧ (json body = .ok → body ≠ [] ∧ kind body) := by
  unfold isValidJson
  cases hresult : json body with
  | ok => exact ⟨fun h => ⟨by simp, fun _ => h⟩, fun h => h.2 rfl⟩
  | parseError =>
      refine iff_of_true (Or.inl ⟨_, rfl, rfl⟩) ⟨by simp, fun h => ?_⟩
      cases h
  | outOfRange =>
      -- `nlohmann`'s own exception is no refusal.
      have hnot : ∀ status, ¬ Refuses status jsonOverflow := by
        intro status h
        obtain ⟨ex, hex, -⟩ := h
        cases hex
      refine iff_of_false (fun h => ?_) fun h => h.1 rfl
      exact Or.elim h (hnot _) (hnot _)

/-- `is_valid_url_form` and the throw behind it. -/
theorem endsIn_checkForm {message : Bytes}
    (hkind : isValidUrlForm body = true → kind body) :
    EndsIn kind (if isValidUrlForm body then .ok body
      else .error (.http (.mk' .badRequest message ∅))) := by
  cases hvalid : isValidUrlForm body with
  | true =>
      refine ⟨fun hnil => ?_, hkind hvalid⟩
      rw [hnil] at hvalid
      cases hvalid
  | false => exact Or.inl ⟨_, rfl, rfl⟩

/-- `extract_body` fails with a refusal. -/
theorem endsIn_noBody {e : Exn} (h : extractBody buffer = .error e) :
    EndsIn kind (.error e) := Or.inl (plain_extractBody h).refuses

section Body

variable (hempty : json [] = .parseError)
include hempty

/-- JSON that parses is not empty. -/
theorem ne_nil_of_json (h : json body = .ok) : body ≠ [] := by
  intro hnil
  rw [hnil, hempty] at h
  cases h

/-- `body_any`: it fails at an empty body that claims nothing, and at the
overflow. -/
theorem endsIn_bodyAny
    (hkind : ∀ args, CheckedBody json buffer args → kind args) :
    EndsIn kind (bodyAny json buffer)
      ↔ (∀ body, extractBody buffer = .ok body →
          getContentType buffer = some jsonType → json body ≠ .outOfRange)
        ∧ ¬ EmptyBody buffer := by
  -- No body, a JSON body, a form, or a body of another type.
  cases hbody : extractBody buffer with
  | error e =>
      have hresult : bodyAny json buffer = .error e := by
        rw [bodyAny, hbody]
        rfl
      rw [hresult]
      refine iff_of_true (endsIn_noBody hbody)
        ⟨fun body h => (by cases h), fun h => ?_⟩
      cases hbody.symm.trans h.body
  | ok body =>
      by_cases hct : getContentType buffer = some jsonType
      · rw [bodyAny_of_json hbody hct, endsIn_checkJson]
        constructor
        · intro h
          exact ⟨fun b hb _ => Except.ok.inj hb ▸ h.1,
            fun he => he.not_json hct⟩
        · intro h
          refine ⟨h.1 body rfl hct, fun hok =>
            ⟨ne_nil_of_json hempty hok, hkind body ⟨hbody, fun _ => hok,
              fun hform => ?_⟩⟩⟩
          exact absurd (Option.some.inj (hct.symm.trans hform))
            jsonType_ne_formType
      · by_cases hform : getContentType buffer = some formType
        · rw [bodyAny_of_form hbody hform]
          refine iff_of_true (endsIn_checkForm fun hvalid =>
            hkind body ⟨hbody, fun h => absurd h hct, fun _ => hvalid⟩)
            ⟨fun b _ h => absurd h hct, fun he => he.not_form hform⟩
        -- What is neither is passed on as it is, also where it is empty.
        · rw [bodyAny_of_other hbody hct hform]
          constructor
          · intro h
            refine ⟨fun b _ hj => absurd hj hct, fun he => h.1 ?_⟩
            exact Except.ok.inj (hbody.symm.trans he.body)
          · intro h
            refine ⟨fun hnil => h.2 ⟨?_, hct, hform⟩, hkind body
              ⟨hbody, fun hj => absurd hj hct, fun hf => absurd hf hform⟩⟩
            rw [hbody, hnil]

/-- `get_args` for JSON: it fails at the overflow only. -/
theorem endsIn_json
    (hkind : ∀ args, extractBody buffer = .ok args →
      getContentType buffer = some jsonType → json args = .ok →
      kind args) :
    EndsIn kind (getArgs buffer jsonType (isValidJson json))
      ↔ ∀ body, extractBody buffer = .ok body →
          getContentType buffer = some jsonType →
          json body ≠ .outOfRange := by
  cases hbody : extractBody buffer with
  | error e =>
      rw [getArgs_of_noBody hbody]
      exact iff_of_true (endsIn_noBody hbody) fun body h => by cases h
  | ok body =>
      by_cases hct : getContentType buffer = some jsonType
      · rw [getArgs_of_desired hbody hct, endsIn_checkJson]
        constructor
        · intro h b hb _
          exact Except.ok.inj hb ▸ h.1
        · intro h
          exact ⟨h body rfl hct, fun hok => ⟨ne_nil_of_json hempty hok,
            hkind body hbody hct hok⟩⟩
      · obtain ⟨e, he, hrefuses⟩ := getArgs_of_other hbody hct
        rw [he]
        exact iff_of_true (Or.inr hrefuses) fun b _ hj => absurd hj hct

end Body

/-- `get_args` for a form: it never fails otherwise. -/
theorem endsIn_form
    (hkind : ∀ args, extractBody buffer = .ok args →
      getContentType buffer = some formType →
      isValidUrlForm args = true → kind args) :
    EndsIn kind (getArgs buffer formType fun b =>
      pure (isValidUrlForm b)) := by
  cases hbody : extractBody buffer with
  | error e =>
      rw [getArgs_of_noBody hbody]
      exact endsIn_noBody hbody
  | ok body =>
      by_cases hct : getContentType buffer = some formType
      · rw [getArgs_of_desired hbody hct]
        exact endsIn_checkForm (hkind body hbody hct)
      · obtain ⟨e, he, hrefuses⟩ := getArgs_of_other hbody hct
        rw [he]
        exact Or.inr hrefuses

-- ========================================================= the query string

/-- A query string that is not empty stands behind the `?`. -/
theorem behindQuestion_of_ne_nil {target : Bytes}
    (htarget : getRequestTarget buffer = .ok target)
    (hne : queryOf target ≠ []) :
    BehindQuestion buffer (queryOf target) := by
  by_cases hmem : (63 : Byte) ∈ target
  · obtain ⟨path, query, rfl, hpath⟩ := List.eq_append_cons_of_mem hmem
    rw [(parts_of_question query hpath).2]
    exact ⟨path, htarget, hpath⟩
  · exact absurd (parts_of_no_question hmem).2 hne

/-- The query string is there, or the target is refused. -/
theorem extractQueryString_cases (buffer : Bytes) :
    (∃ e, extractQueryString buffer = .error e ∧ Refuses .badRequest e
        ∧ ¬ NoQuery buffer)
      ∨ (extractQueryString buffer = .ok [] ∧ NoQuery buffer)
      ∨ ∃ query, extractQueryString buffer = .ok query ∧ query ≠ []
        ∧ BehindQuestion buffer query ∧ ¬ NoQuery buffer := by
  cases htarget : getRequestTarget buffer with
  | error e =>
      refine Or.inl ⟨e, ?_, (plain_getRequestTarget htarget).refuses,
        fun h => ?_⟩
      · rw [extractQueryString, htarget]
        rfl
      · obtain ⟨target, hok, -⟩ := h
        cases htarget.symm.trans hok
  | ok target =>
      have hquery : extractQueryString buffer = .ok (queryOf target) := by
        rw [extractQueryString_of_target htarget, (find_question target).2]
      by_cases hnil : queryOf target = []
      · rw [hnil] at hquery
        exact Or.inr (Or.inl ⟨hquery, target, htarget, hnil⟩)
      · refine Or.inr (Or.inr ⟨_, hquery, hnil,
          behindQuestion_of_ne_nil htarget hnil, fun h => ?_⟩)
        obtain ⟨target', hok, hnil'⟩ := h
        cases htarget.symm.trans hok
        exact hnil hnil'

-- ===================================================== provided or refused

/-- An endpoint asks for one type of arguments only. -/
theorem asked_unique {env : Env} {router router' : Router} {url : Bytes}
    {m : Method} {argType argType' : ArgType}
    (h : Asked env buffer router url router' m argType)
    (h' : Asked env buffer router url router' m argType') :
    argType' = argType := by
  obtain ⟨ep, hep, harg⟩ := h.argType
  obtain ⟨ep', hep', harg'⟩ := h'.argType
  cases hep.symm.trans hep'
  exact Except.ok.inj (harg'.symm.trans harg)

/-- What holds of the argument check holds of the requests it lets
through. -/
theorem providedOrRefused_iff :
    ProvidedOrRefused json buffer argType
      ↔ EndsIn (OfKind json buffer argType)
          (extractArgs json buffer argType) := by
  constructor
  · exact fun h => h.checked
  · intro h
    refine ⟨h, fun env txn hread hbuffer hjson request router hstores
      hasked => ?_⟩
    have hreads := parseReads_of_stores hread txn hstores
    obtain ⟨argType', hasked', hargs⟩ := hreads.asked
    rw [hbuffer] at hasked' hargs
    have hsame := asked_unique hasked hasked'
    subst hsame
    rw [← hjson, hargs, hjson] at h
    exact h

/-- Where the arguments are looked for in the body, the bodies whose JSON
is parsed are those that claim to be JSON. -/
theorem forall_checksJson {P : Bytes → Prop}
    (hreads : ReadsBody buffer argType) (hurl : argType ≠ .bodyUrl) :
    (∀ body, ChecksJson buffer argType body → P body)
      ↔ ∀ body, extractBody buffer = .ok body →
          getContentType buffer = some jsonType → P body := by
  constructor
  · intro h body hbody hct
    exact h body ⟨hreads, hurl, hbody, hct⟩
  · intro h body hchecks
    exact h body hchecks.body hchecks.contentType

/-- The query string, where it is declared. -/
theorem endsIn_queryString :
    EndsIn (OfKind json buffer .queryString) (extractQueryString buffer)
      ↔ ¬ NoQuery buffer := by
  rcases extractQueryString_cases buffer with
    ⟨e, he, hrefuses, hquery⟩ | ⟨hnil, hquery⟩
      | ⟨query, hok, hne, hbehind, hquery⟩
  · rw [he]
    exact iff_of_true (Or.inl hrefuses) hquery
  · rw [hnil]
    exact iff_of_false (fun h => h.1 rfl) (not_not_intro hquery)
  · rw [hok]
    exact iff_of_true ⟨hne, hbehind⟩ hquery

/-- Either, where any is declared: the body is asked where there is no
query string. -/
theorem endsIn_any (hempty : json [] = .parseError) :
    EndsIn (OfKind json buffer .any) (argsAny json buffer)
      ↔ ¬ (NoQuery buffer ∧ EmptyBody buffer)
        ∧ ∀ body, ChecksJson buffer .any body →
            json body ≠ .outOfRange := by
  rcases extractQueryString_cases buffer with
    ⟨e, he, hrefuses, hquery⟩ | ⟨hnil, hquery⟩
      | ⟨query, hok, hne, hbehind, hquery⟩
  · have hresult : argsAny json buffer = .error e := by
      rw [argsAny, he]
      rfl
    rw [hresult]
    -- No query could be read, so the request is refused and no body is
    -- asked for.
    refine iff_of_true (Or.inl hrefuses)
      ⟨fun h => hquery h.1, fun body hc => ?_⟩
    cases he.symm.trans hc.reads
  · have hresult : argsAny json buffer = bodyAny json buffer := by
      rw [argsAny, hnil]
      rfl
    -- An empty query sends the caller on to the body.
    have hends : EndsIn (OfKind json buffer .any)
        (bodyAny json buffer) ↔ _ :=
      endsIn_bodyAny hempty fun args h => Or.inr ⟨hnil, h⟩
    have hreads : ReadsBody buffer .any := hnil
    rw [hresult, hends, forall_checksJson hreads (by simp), and_comm,
      not_and, forall_prop_of_true hquery]
  · have hresult : argsAny json buffer = .ok query := by
      obtain ⟨b, rest, rfl⟩ := List.exists_cons_of_ne_nil hne
      rw [argsAny, hok]
      rfl
    rw [hresult]
    refine iff_of_true ⟨hne, Or.inl hbehind⟩
      ⟨fun h => hquery h.1, fun body hc => ?_⟩
    exact absurd (Except.ok.inj (hok.symm.trans hc.reads)) hne

/-- Declared arguments are provided or the request is refused, exactly
where the argument is not missing and the JSON that is parsed holds no
number beyond a double. -/
theorem provided_or_refused_iff (hempty : json [] = .parseError)
    (hdeclared : argType ≠ .none) :
    ProvidedOrRefused json buffer argType
      ↔ ¬ Missing buffer argType
        ∧ ∀ body, ChecksJson buffer argType body →
            json body ≠ .outOfRange := by
  rw [providedOrRefused_iff]
  cases argType with
  | none => exact absurd rfl hdeclared
  | queryString =>
      -- A query string never reaches the JSON reader, so the second
      -- conjunct says nothing here.
      have hno : ∀ body, ChecksJson buffer .queryString body →
          json body ≠ .outOfRange := fun body h => h.reads.elim
      exact endsIn_queryString.trans (and_iff_left hno).symm
  | any => exact endsIn_any hempty
  | bodyAny =>
      have hends : EndsIn (OfKind json buffer .bodyAny)
          (bodyAny json buffer) ↔ _ :=
        endsIn_bodyAny hempty fun args h => h
      have hreads : ReadsBody buffer .bodyAny := trivial
      rw [forall_checksJson hreads (by simp)]
      exact hends.trans and_comm
  | bodyJson =>
      have hends : EndsIn (OfKind json buffer .bodyJson)
          (getArgs buffer jsonType (isValidJson json)) ↔ _ :=
        endsIn_json hempty fun args hbody hct hok => ⟨hbody, hct, hok⟩
      have hreads : ReadsBody buffer .bodyJson := trivial
      rw [forall_checksJson hreads (by simp)]
      exact hends.trans (and_iff_right not_false).symm
  | bodyUrl =>
      have hends : EndsIn (OfKind json buffer .bodyUrl)
          (getArgs buffer formType fun b => pure (isValidUrlForm b)) :=
        endsIn_form fun args hbody hct hvalid => ⟨hbody, hct, hvalid⟩
      -- The form check refuses whatever it does not accept, so neither side
      -- can fail.
      exact iff_of_true hends
        ⟨not_false, fun body hc => absurd rfl hc.argType⟩

/-- A JSON parser that takes digits only. -/
def digitsJson (text : Bytes) : JsonResult :=
  if !text.isEmpty && text.all isDigit then .ok else .parseError

/-- A route that declares a JSON body gets one or refuses. -/
theorem provided_or_refused_digits :
    ProvidedOrRefused digitsJson
      (bytes "POST /n HTTP/1.1\r\nContent-Type: application/json\r\n\r\n7")
      .bodyJson := by
  refine (provided_or_refused_iff rfl (by decide)).mpr
    ⟨not_false, fun body _ => ?_⟩
  unfold digitsJson
  split
  · decide
  · decide

/-- A search without its query string. -/
def noQuery : Bytes := bytes "GET /search HTTP/1.1\r\n\r\n"

/-- The query string a route declares is not there, and the request goes
on with an empty one. -/
theorem missing_query_provided :
    ¬ ProvidedOrRefused digitsJson noQuery .queryString
      ∧ extractArgs digitsJson noQuery .queryString = .ok [] := by
  have hargs : extractArgs digitsJson noQuery .queryString = .ok [] := rfl
  refine ⟨fun h => ?_, hargs⟩
  have hends := h.checked
  rw [hargs] at hends
  exact hends.1 rfl

end CgiWebServer
