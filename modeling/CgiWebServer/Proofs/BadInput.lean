/-
What bytes a client can send to be answered as a server error.

Every step of the parser refuses with an `HTTPException` of a client
status but one: where a route checks a JSON body, and the body holds a
number no double holds, `nlohmann` throws an `out_of_range` that
`is_valid_json` does not catch. No other exception leaves the parser,
whatever bytes arrive (`client_errors_iff`).
-/
import CgiWebServer.Proofs.Parsing

namespace CgiWebServer

open Process

section Input

variable (env : Env)

/-- The parser stores a request and calls `next`, or it refuses with a
client status. -/
def AnswersClient (txn : Txn) : Prop :=
  (∃ request router, ∀ next, parserProcess env next txn
      = next { txn with request := request, router := router })
    ∨ ∃ ex router, (∀ next, parserProcess env next txn
        = (.error (.raised (.http ex)), { txn with router := router }))
      ∧ 400 ≤ ex.response.status.val ∧ ex.response.status.val ≤ 499

/-- The buffer asks for a route that checks a JSON body, and its body
holds a number no double holds. -/
def OverflowsJson (buffer : Bytes) (router : Router) : Prop :=
  ∃ url router' m argType body,
    Asked env buffer router url router' m argType
      ∧ ChecksJson buffer argType body ∧ env.json body = .outOfRange

variable {env} {buffer : Bytes} {router : Router} {e : Exn}

/-- A failure is a refusal with a client status, or the overflow. -/
theorem parseFails_cases (h : ParseFails env buffer router e) :
    (∃ ex, e = .http ex ∧ 400 ≤ ex.response.status.val
        ∧ ex.response.status.val ≤ 499)
      ∨ (e = jsonOverflow ∧ OverflowsJson env buffer router) := by
  have hclient : ∀ {status : Code}, Refuses status e →
      400 ≤ status.val ∧ status.val ≤ 499 →
      ∃ ex, e = .http ex ∧ 400 ≤ ex.response.status.val
        ∧ ex.response.status.val ≤ 499 := by
    rintro status ⟨ex, hex, rfl⟩ hstatus
    exact ⟨ex, hex, hstatus⟩
  cases h with
  | noTarget h =>
      exact Or.inl (hclient (plain_getRequestTarget h).refuses (by decide))
  | unknown _ h =>
      exact Or.inl (hclient (plain_getEndpoint h).refuses (by decide))
  | noMethod _ h =>
      exact Or.inl (hclient (plain_extractMethod h).refuses (by decide))
  | notAllowed _ _ _ h =>
      exact Or.inl (hclient (plain_field h).refuses (by decide))
  | badHeaders _ _ h =>
      exact Or.inl (hclient (plain_extractHeaders h).refuses (by decide))
  | badArgs hasked h =>
      obtain ⟨query, hquery⟩ :=
        extractQueryString_of_endpoint hasked.found.endpoint
      cases argsFail_extractArgs hquery h with
      | malformed hrefuses _ =>
          exact Or.inl (hclient hrefuses (by decide))
      | unsupported hrefuses =>
          exact Or.inl (hclient hrefuses (by decide))
      | overflow he hchecks hresult =>
          exact Or.inr ⟨he, _, _, _, _, _, hasked, hchecks, hresult⟩

/-- Where the parser throws what is not an `HTTPException`, it does not
answer the client. -/
theorem not_answersClient {txn : Txn} {what : Bytes} {router' : Router}
    (h : ∀ next, parserProcess env next txn
      = (.error (.raised (.std what)), { txn with router := router' })) :
    ¬ AnswersClient env txn := by
  intro h
  rcases h with ⟨request, router, hstores⟩ | ⟨ex, router, hthrows, -⟩
  · have hstop := (h (Proc.raise .pending)).symm.trans
      (hstores (Proc.raise .pending))
    exact absurd (congrArg Prod.fst hstop) (by simp)
  · have hstop := (h (pure ())).symm.trans (hthrows (pure ()))
    exact absurd (congrArg Prod.fst hstop) (by simp)

/-- Of the bytes a client sends, only a JSON number no double holds, on a
route that checks for JSON, is answered as a server error. -/
theorem client_errors_iff (env : Env) (hread : env.readEc = .ok)
    (txn : Txn) :
    AnswersClient env txn
      ↔ ¬ OverflowsJson env env.buffer txn.router := by
  constructor
  · intro hanswers h
    obtain ⟨url, router', m, argType, body, hasked, hchecks, hover⟩ := h
    have hfails : ParseFails env env.buffer txn.router jsonOverflow :=
      .badArgs hasked (extractArgs_of_overflow hchecks hover)
    obtain ⟨router'', hthrows⟩ := parser_throws hread txn hfails
    exact not_answersClient hthrows hanswers
  · intro hover
    rcases parse_cases env env.buffer txn.router with ⟨e, hfails⟩
      | ⟨request, router', hreads⟩
    · obtain ⟨router', hthrows⟩ := parser_throws hread txn hfails
      rcases parseFails_cases hfails with ⟨ex, rfl, hstatus⟩ | ⟨-, hbad⟩
      · exact Or.inr ⟨ex, router', hthrows, hstatus⟩
      · exact absurd hbad hover
    · exact Or.inl ⟨request, router', fun next =>
        parser_stores hread txn next hreads⟩

end Input

-- ============================================================== one input

/-- A table with one route: POST `/sum` takes JSON. -/
def sumRouter : Router where
  endpoints := (∅ : AList fun _ : Bytes => Endpoint).insert (bytes "/sum")
    (({} : Endpoint).addMethod
      { m := .post, accessRole := viewerRole, hasScript := true,
        resource := bytes "scripts/sum.py", args := .bodyJson,
        handler := some .post })
  errorPages := ∅

/-- A JSON text with a number no double holds. -/
def largeNumber : Bytes := bytes "\x7b\"a\":1e999\x7d"

/-- A client posts it; `nlohmann` throws `out_of_range` on it. -/
def postsLargeNumber : Env where
  readData := bytes "POST /sum HTTP/1.1\r\n"
    ++ bytes "Content-Type: application/json\r\n\r\n" ++ largeNumber
  json body := if body = largeNumber then .outOfRange else .ok

theorem asked_postsLargeNumber :
    Asked postsLargeNumber postsLargeNumber.buffer sumRouter (bytes "/sum")
      sumRouter .post .bodyJson := by
  refine ⟨⟨by decide, rfl⟩, by decide, _, rfl, rfl⟩

theorem checksJson_postsLargeNumber :
    ChecksJson postsLargeNumber.buffer .bodyJson largeNumber :=
  ⟨trivial, by decide, by decide, by decide⟩

/-- The parser throws an exception that is not an `HTTPException`. -/
theorem large_number_is_server_error :
    ¬ AnswersClient postsLargeNumber { router := sumRouter } := by
  have hresult : postsLargeNumber.json largeNumber = .outOfRange := by
    simp only [postsLargeNumber, if_true]
  have hread : postsLargeNumber.readEc = .ok := rfl
  have hfails : ParseFails postsLargeNumber postsLargeNumber.buffer
      sumRouter jsonOverflow :=
    .badArgs asked_postsLargeNumber
      (extractArgs_of_overflow checksJson_postsLargeNumber hresult)
  obtain ⟨router', hthrows⟩ :=
    parser_throws hread { router := sumRouter } hfails
  exact not_answersClient hthrows

/-- A client that sends one word, on the same table. -/
theorem client_errors_word :
    AnswersClient { readData := bytes "hello" } { router := sumRouter } := by
  refine (client_errors_iff { readData := bytes "hello" } rfl
    { router := sumRouter }).mpr ?_
  intro h
  obtain ⟨url, router', m, argType, body, hasked, -⟩ := h
  have htarget : extractEndpoint (bytes "hello") = .error
      (.ofStatus .badRequest "malformed request: no spaces") := rfl
  exact absurd (htarget.symm.trans hasked.found.endpoint) (by simp)

end CgiWebServer
