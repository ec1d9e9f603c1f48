/-
The status a relayed chunk ends in.

# Well-formed chunks

`ScriptResponse` is a response as the callback should take it: a status
line of HTTP/1.1 with a code of three digits, header lines that hold the
splitter, a blank line, a body. Such a chunk parses as it is meant, and
is relayed with its own code and line, but for the one code the callback
takes for a failure of `extract_status_code` (`relays_iff`).

# Malformed chunks

The callback refuses a chunk by the value that comes back for its code
alone: `Bad_Request` for a chunk without a space, or the number -1 or
400. `extract_status_code` reports its other failures as `Bad_Gateway`,
which the callback does not look for. Everything else that is malformed
ends with the `Bad_Request` of another extractor or is relayed, and a
write that fails throws no `Bad_Gateway` either (`refuses_iff`).
-/
import CgiWebServer.Proofs.Exceptions
import CgiWebServer.Proofs.Request
import CgiWebServer.Proofs.Writing

namespace CgiWebServer

open Process Scan

-- ======================================================== the two fields

/-- Between the first two spaces stands the code. -/
theorem extractStatusCode_fields {version code : Bytes} (rest : Bytes)
    (hversion : 32 ∉ version) (hcode : 32 ∉ code) :
    extractStatusCode (version ++ (sp ++ (code ++ (sp ++ rest))))
      = ((stoi code).map Code.mk).getD .badGateway := by
  have hfirst : find sp (version ++ (sp ++ (code ++ (sp ++ rest))))
      = some version.length := find_field _ hversion
  have hlen : version.length + 1 = (version ++ sp).length := by
    rw [List.length_append, sp_eq, List.length_singleton]
  have hsecond : findFrom sp (version ++ (sp ++ (code ++ (sp ++ rest))))
      (version.length + 1) = some (version.length + 1 + code.length) := by
    rw [hlen, ← List.append_assoc, findFrom_append,
      show find sp (code ++ (sp ++ rest)) = some code.length from
        find_field _ hcode]
    rfl
  have hcut : substr (version ++ (sp ++ (code ++ (sp ++ rest))))
      (version.length + 1) code.length = code := by
    rw [hlen, ← List.append_assoc]
    exact substr_append _ _ _
  unfold extractStatusCode
  simp only [hfirst, hsecond, Nat.add_sub_cancel_left, hcut]
  cases stoi code with
  | none => rfl
  | some n => rfl

/-- A chunk in which the callback sees a failure: it holds no space, or
its code reads as one of the two values that stand for one. -/
def SeenToFail (data : Bytes) : Prop :=
  32 ∉ data ∨ ∃ version code rest : Bytes,
    data = version ++ (sp ++ (code ++ (sp ++ rest))) ∧ 32 ∉ version
      ∧ 32 ∉ code ∧ (stoi code = some 400 ∨ stoi code = some (-1))

/-- The callback's test for it. -/
theorem seenToFail_iff {data : Bytes} :
    SeenToFail data ↔ extractStatusCode data = .badRequest
      ∨ extractStatusCode data = .notAStatus := by
  constructor
  · intro h
    rcases h with hnone | ⟨version, code, rest, rfl, hversion, hcode, hval⟩
    · left
      unfold extractStatusCode
      rw [show find sp data = none from find_none_of_head hnone]
    · rw [extractStatusCode_fields rest hversion hcode]
      rcases hval with hval | hval
      · exact Or.inl (by rw [hval]; rfl)
      · exact Or.inr (by rw [hval]; rfl)
  · intro htest
    -- The code is what stands between the first two spaces.
    by_cases hnone : 32 ∈ data
    · obtain ⟨version, behind, rfl, hversion⟩ :=
        List.eq_append_cons_of_mem hnone
      by_cases hsecond : 32 ∈ behind
      · obtain ⟨code, rest, rfl, hcode⟩ := List.eq_append_cons_of_mem hsecond
        refine Or.inr ⟨version, code, rest, rfl, hversion, hcode, ?_⟩
        have hread := extractStatusCode_fields rest hversion hcode
        rw [show version ++ (sp ++ (code ++ (sp ++ rest)))
          = version ++ 32 :: (code ++ 32 :: rest) from rfl] at hread
        rw [hread] at htest
        cases hval : stoi code with
        | none =>
            rw [hval] at htest
            exact absurd htest (by decide)
        | some n =>
            rw [hval] at htest
            rcases htest with h | h
            · exact Or.inl (congrArg some (congrArg Code.val h))
            · exact Or.inr (congrArg some (congrArg Code.val h))
      · -- One space only: the failure is reported as `Bad_Gateway`.
        have hgateway : extractStatusCode (version ++ 32 :: behind)
            = .badGateway := by
          have hfirst : find sp (version ++ 32 :: behind)
              = some version.length := find_field _ hversion
          have hnext : findFrom sp (version ++ 32 :: behind)
              (version.length + 1) = none := by
            have hbehind := findFrom_append sp (version ++ sp) behind
            rw [List.length_append, List.append_assoc,
              show find sp behind = none from find_none_of_head hsecond]
              at hbehind
            exact hbehind
          unfold extractStatusCode
          simp only [hfirst, hnext]
        rw [hgateway] at htest
        exact absurd htest (by decide)
    · exact Or.inl hnone

-- ================================================== well-formed chunks

/-- A well-formed response of a script. -/
structure ScriptResponse where
  code : Bytes
  reason : Bytes
  headers : List (Bytes × Bytes)
  body : Bytes
  code_ok : code.length = 3 ∧ ∀ b ∈ code, isDigit b = true
  reason_ok : ¬ crlf <:+: reason
  headers_ok : Readable headers

namespace ScriptResponse

/-- `HTTP/1.1`, code and reason, one space apart. -/
def statusLine (r : ScriptResponse) : Bytes :=
  bytes "HTTP/1.1" ++ (sp ++ (r.code ++ (sp ++ r.reason)))

/-- The response as the script prints it. -/
def text (r : ScriptResponse) : Bytes :=
  r.statusLine ++ (crlf ++ (fieldsText r.headers ++ (crlf ++ r.body)))

/-- The code's number. -/
def status (r : ScriptResponse) : Code := ⟨digitsVal r.code⟩

/-- A byte that is no digit is not in the code. -/
theorem not_mem_code (r : ScriptResponse) {b : Byte}
    (hb : isDigit b = false) : b ∉ r.code := by
  intro hmem
  rw [r.code_ok.2 b hmem] at hb
  cases hb

/-- The status line is one line. -/
theorem statusLine_ok (r : ScriptResponse) : ¬ crlf <:+: r.statusLine := by
  have hversion : (13 : Byte) ∉ bytes "HTTP/1.1" := by decide
  have hsp : (13 : Byte) ∉ sp := by decide
  have hcode : (13 : Byte) ∉ r.code := r.not_mem_code rfl
  apply not_infix_append_of_head hversion
  apply not_infix_append_of_head hsp
  apply not_infix_append_of_head hcode
  exact not_infix_append_of_head hsp r.reason_ok

theorem extractHeaderLine_text (r : ScriptResponse) :
    extractHeaderLine r.text = r.statusLine := by
  unfold extractHeaderLine text
  rw [find_crlf_line _ r.statusLine_ok]
  exact List.take_left

end ScriptResponse

/-- Three digits are below a thousand. -/
theorem digitsVal_three {ds : Bytes} (hlen : ds.length = 3)
    (hdigits : ∀ b ∈ ds, isDigit b = true) : digitsVal ds < 1000 := by
  obtain ⟨a, b, c, rfl⟩ := List.length_eq_three.mp hlen
  have hle : ∀ d ∈ [a, b, c], d.toNat - 48 ≤ 9 := by
    intro d hd
    have hdigit := hdigits d hd
    rw [isDigit, Bool.and_eq_true, decide_eq_true_eq, decide_eq_true_eq]
      at hdigit
    have htop : d.toNat ≤ 57 := hdigit.2
    omega
  have ha := hle a (by simp)
  have hb := hle b (by simp)
  have hc := hle c (by simp)
  simp only [digitsVal, List.foldl_cons, List.foldl_nil]
  omega

namespace ScriptResponse

/-- A code of three digits reads as its number. -/
theorem stoi_code (r : ScriptResponse) :
    stoi r.code = some (digitsVal r.code : Int) := by
  have hlt := digitsVal_three r.code_ok.1 r.code_ok.2
  have hne : r.code ≠ [] := by
    intro hnil
    have hlen := r.code_ok.1
    rw [hnil] at hlen
    cases hlen
  rw [stoi_digits hne r.code_ok.2, if_pos (by omega)]

theorem extractStatusCode_text (r : ScriptResponse) :
    extractStatusCode r.text = r.status := by
  have hversion : (32 : Byte) ∉ bytes "HTTP/1.1" := by decide
  have hread := extractStatusCode_fields
    (r.reason ++ (crlf ++ (fieldsText r.headers ++ (crlf ++ r.body))))
    hversion (r.not_mem_code (b := 32) rfl)
  rw [stoi_code] at hread
  simp only [text, statusLine, List.append_assoc]
  exact hread

/-- A well-formed chunk with a code other than 400 parses. -/
theorem relayParse_text (r : ScriptResponse)
    (hcode : digitsVal r.code ≠ 400) :
    ∃ body, relayParse r.text = .ok (body, headerMap r.headers ∅) := by
  have hheaders := extractHeaders_text r.body r.statusLine_ok r.headers_ok
  have hblank := find_blank_line r.body r.headers_ok r.statusLine_ok
  have hbody : ∃ body, extractBody r.text = .ok body := by
    unfold extractBody text
    rw [hblank]
    exact ⟨_, rfl⟩
  obtain ⟨body, hbody⟩ := hbody
  have hstatus : ¬ (r.status = .badRequest ∨ r.status = .notAStatus) := by
    intro h
    rcases h with h | h
    · have hval : (digitsVal r.code : Int) = 400 := congrArg Code.val h
      omega
    · have hval : (digitsVal r.code : Int) = -1 := congrArg Code.val h
      omega
  unfold relayParse
  rw [extractStatusCode_text, if_neg hstatus, hbody,
    show extractHeaders r.text = _ from hheaders]
  exact ⟨body, rfl⟩

/-- The chunk is relayed with its own status: the callback sends one
head, with the code and the status line of the response. -/
def Relayed (r : ScriptResponse) : Prop :=
  ∀ env txn, ∃ response accepted,
    (relayChunk env true r.text txn).2.trace
      = txn.trace ++ [.head response accepted]
      ∧ response.status = r.status ∧ response.statusMsg = r.statusLine

end ScriptResponse

/-- The callback refuses a chunk: it throws an `HTTPException` with
`Bad_Gateway`. -/
def Refused (data : Bytes) : Prop :=
  ∀ env txn, ∃ e : HTTPException,
    (relayChunk env true data txn).1 = .error (.raised (.http e))
      ∧ e.response.status = .badGateway

-- ======================================================== the two parts

/-- A well-formed chunk is relayed exactly if its code is not 400. -/
theorem relayed_iff (r : ScriptResponse) :
    r.Relayed ↔ digitsVal r.code ≠ 400 := by
  constructor
  · intro hall hcode
    obtain ⟨response, accepted, hsent, -⟩ := hall {} { router :=
      { endpoints := ∅, errorPages := ∅ } }
    have hparse : relayParse r.text = .error (.ofStatus .badGateway
        "Failed to parse response from script") := by
      unfold relayParse
      rw [r.extractStatusCode_text, ScriptResponse.status, hcode]
      exact if_pos (Or.inl rfl)
    obtain ⟨_, hrun⟩ := relayChunk_of_error {} hparse
      { router := { endpoints := ∅, errorPages := ∅ } }
    rw [hrun] at hsent
    cases hsent
  · intro hcode env txn
    obtain ⟨body, hparse⟩ := r.relayParse_text hcode
    refine ⟨_, _, congrArg (fun run => run.2.trace)
      (relayChunk_of_ok env hparse txn), ?_, ?_⟩
    · exact r.extractStatusCode_text
    · exact r.extractHeaderLine_text

/-- No write reports `Bad_Gateway`. -/
theorem errorToStatus_not_gateway (ec : ErrorCode) :
    errorToStatus ec ≠ .badGateway := by
  unfold errorToStatus
  repeat' split
  all_goals decide

theorem writeLoop_not_gateway (buffer : Bytes) :
    ∀ (answers : List WriteAnswer) (st : TransferState) (accepted : Bytes),
      ∀ r ∈ (writeLoop buffer answers st accepted).result,
        r.status ≠ .badGateway := by
  have hend : ∀ st : TransferState, (writeEnd st).status ≠ .badGateway := by
    intro st
    unfold writeEnd
    split
    · exact (by decide : Code.internalServerError ≠ .badGateway)
    · exact (by decide : Code.ok ≠ .badGateway)
  intro answers
  -- The loop ends with its own status or with that of a socket error.
  induction answers with
  | nil =>
      intro st accepted r hr
      unfold writeLoop at hr
      split at hr
      next => cases hr
      next =>
        cases hr
        exact hend st
  | cons a answers ih =>
      intro st accepted r hr
      unfold writeLoop at hr
      split at hr
      next =>
        cases hturn : writeTurn st a with
        | error result =>
            rw [hturn] at hr
            cases hr
            rw [(writeTurn_error hturn).2]
            exact errorToStatus_not_gateway a.ec
        | ok st' =>
            rw [hturn] at hr
            exact ih st' _ r hr
      next =>
        cases hr
        exact hend st

/-- The end of a write is no exception with `Bad_Gateway`. -/
theorem writeEndOf_not_gateway {result : Option WriteStatus}
    {e : HTTPException} (hstatus : ∀ r ∈ result, r.status ≠ .badGateway)
    (hend : writeEndOf result = .error (.raised (.http e))) :
    e.response.status ≠ .badGateway := by
  cases result with
  | none => cases hend
  | some r =>
      simp only [writeEndOf] at hend
      split at hend
      next => cases hend
      next =>
        cases hend
        exact hstatus r rfl

/-- What an extractor throws is the client's fault. -/
theorem relayParse_error {data : Bytes} {e : Exn}
    (hparse : relayParse data = .error e) (hseen : ¬ SeenToFail data) :
    Plain .badRequest e := by
  unfold relayParse at hparse
  rw [seenToFail_iff] at hseen
  rw [if_neg hseen] at hparse
  cases hbody : extractBody data with
  | error e' =>
      rw [hbody] at hparse
      cases hparse
      exact plain_extractBody hbody
  | ok body =>
      cases hheaders : extractHeaders data with
      | error e' =>
          rw [hbody, hheaders] at hparse
          cases hparse
          exact plain_extractHeaders hheaders
      | ok headers =>
          rw [hbody, hheaders] at hparse
          cases hparse

/-- The callback refuses the chunks in which it sees a failure, and no
others. -/
theorem refused_iff (data : Bytes) : Refused data ↔ SeenToFail data := by
  constructor
  · intro hall
    by_contra hseen
    obtain ⟨e, hrun, hstatus⟩ := hall {} { router :=
      { endpoints := ∅, errorPages := ∅ } }
    cases hparse : relayParse data with
    | error e' =>
        obtain ⟨_, hthrows⟩ := relayChunk_of_error {} hparse
          { router := { endpoints := ∅, errorPages := ∅ } }
        rw [hthrows] at hrun
        cases hrun
        obtain ⟨message, hplain⟩ := relayParse_error hparse hseen
        cases hplain
        rw [HTTPException.mk'_status] at hstatus
        exact absurd hstatus (by decide)
    | ok parsed =>
        rw [relayChunk_of_ok {} hparse] at hrun
        exact writeEndOf_not_gateway (writeLoop_not_gateway _ _ _ _) hrun
          hstatus
  · intro hseen env txn
    have hparse : relayParse data = .error (.ofStatus .badGateway
        "Failed to parse response from script") := by
      unfold relayParse
      exact if_pos (seenToFail_iff.mp hseen)
    obtain ⟨r, hrun⟩ := relayChunk_of_error env hparse txn
    rw [hrun]
    exact ⟨_, rfl, rfl⟩

-- ========================================================= what ends well

/-- A chunk ends as it should: a well-formed one is relayed with its own
status, any other is refused. -/
structure EndsWell (data : Bytes) : Prop where
  relayed : ∀ r : ScriptResponse, r.text = data → r.Relayed
  refused : (¬ ∃ r : ScriptResponse, r.text = data) → Refused data

/-- A chunk ends as it should exactly if it is no well-formed response of
status 400 and, where it is malformed, holds no space or reads as one of
the two codes that stand for a failure. -/
theorem endsWell_iff (data : Bytes) :
    EndsWell data
      ↔ (∀ r : ScriptResponse, r.text = data → digitsVal r.code ≠ 400)
        ∧ ((¬ ∃ r : ScriptResponse, r.text = data) → SeenToFail data) := by
  constructor
  · intro h
    exact ⟨fun r hr => (relayed_iff r).mp (h.relayed r hr),
      fun hnot => (refused_iff data).mp (h.refused hnot)⟩
  · intro h
    exact ⟨fun r hr => (relayed_iff r).mpr (h.1 r hr),
      fun hnot => (refused_iff data).mpr (h.2 hnot)⟩

/-- A response of status 400, as a script may print it. -/
def badRequestResponse : ScriptResponse where
  code := bytes "400"
  reason := bytes "Bad Request"
  headers := []
  body := bytes "name missing"
  code_ok := ⟨rfl, List.all_eq_true.mp (by decide)⟩
  reason_ok := by decide
  headers_ok := fun _ hmem => absurd hmem List.not_mem_nil

/-- An output whose blank line is missing. -/
def noBlankLine : Bytes := bytes "HTTP/1.1 200 OK\r\nServer: cgi\r\n"

/-- A script's own 400 is refused with `Bad_Gateway`, and an output
without a blank line with `Bad_Request`. -/
theorem own_status_lost :
    ¬ EndsWell badRequestResponse.text
      ∧ ¬ EndsWell noBlankLine
      ∧ relayParse badRequestResponse.text
          = .error (.ofStatus .badGateway
              "Failed to parse response from script")
      ∧ relayParse noBlankLine
          = .error (.ofStatus .badRequest
              "Failed to extract body from buffer") := by
  refine ⟨fun h => ?_, fun h => ?_, rfl, rfl⟩
  · exact (relayed_iff _).mp (h.relayed _ rfl) rfl
  · have hnot : ¬ ∃ r : ScriptResponse, r.text = noBlankLine := by
      intro h
      obtain ⟨r, hr⟩ := h
      have hblank := find_blank_line r.body r.headers_ok r.statusLine_ok
      rw [show r.statusLine ++ (crlf ++ (fieldsText r.headers
        ++ (crlf ++ r.body))) = noBlankLine from hr] at hblank
      exact absurd (show find crlfcrlf noBlankLine = none by decide)
        (by rw [hblank]; exact Option.some_ne_none _)
    obtain ⟨e, hrun, hstatus⟩ := h.refused hnot {} { router :=
      { endpoints := ∅, errorPages := ∅ } }
    have hparse : relayParse noBlankLine = .error
        (.ofStatus .badRequest "Failed to extract body from buffer") := rfl
    obtain ⟨_, hthrows⟩ := relayChunk_of_error {} hparse
      { router := { endpoints := ∅, errorPages := ∅ } }
    rw [hthrows] at hrun
    cases hrun
    exact absurd hstatus (by decide)

end CgiWebServer
