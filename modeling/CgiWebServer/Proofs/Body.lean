/-
What `extract_body` takes for the body.

It looks for the blank line and then for the next line end behind it,
CRLF first and then LF, and cuts the body there. So it returns the first
line of what stands behind the blank line, and all of it only where no LF
is in it (`firstLine_eq_self`): a CRLF holds one too. The parser, the
argument checks and the script callback all take their bodies from it.
-/
import CgiWebServer.Lib.Loads
import CgiWebServer.Proofs.Parsing
import CgiWebServer.Proofs.Writing

namespace CgiWebServer

open Process Scan

-- ============================================================== the cut

/-- The text in front of the first CRLF, or else of the first LF. -/
def firstLine (b : Bytes) : Bytes :=
  b.take (((find crlf b).orElse fun _ => find lf b).getD b.length)

/-- The first line is everything exactly where there is no LF. -/
theorem firstLine_eq_self {b : Bytes} : firstLine b = b ↔ 10 ∉ b := by
  rw [firstLine, List.take_eq_self_iff]
  cases hcrlf : find crlf b with
  | some i =>
      have hlen := length_of_find hcrlf
      have hlf : (10 : Byte) ∈ b :=
        (infix_of_find hcrlf).subset (List.mem_cons_of_mem _ List.mem_cons_self)
      simp only [Option.orElse_some, Option.getD_some]
      rw [crlf_eq, List.length_cons] at hlen
      exact iff_of_false (by omega) (not_not_intro hlf)
  | none =>
      cases hlf : find lf b with
      | some i =>
          have hlen := length_of_find hlf
          have hmem : (10 : Byte) ∈ b :=
            (infix_of_find hlf).subset List.mem_cons_self
          simp only [Option.orElse_none, Option.getD_some]
          rw [show lf = [10] from rfl, List.length_singleton] at hlen
          exact iff_of_false (by omega) (not_not_intro hmem)
      | none =>
          simp only [Option.orElse_none, Option.getD_none]
          refine iff_of_true (Nat.le_refl _) fun hmem => ?_
          obtain ⟨before, after, hsplit⟩ := List.append_of_mem hmem
          refine find_eq_none_iff.mp hlf ⟨before, after, ?_⟩
          rw [hsplit, List.append_assoc]
          rfl

variable {h b : Bytes}

/-- Behind the first blank line, the body is the first line. -/
theorem extractBody_firstLine
    (hfirst : find crlfcrlf (h ++ (crlfcrlf ++ b)) = some h.length) :
    extractBody (h ++ (crlfcrlf ++ b)) = .ok (firstLine b) := by
  have hcr : (h ++ (crlfcrlf ++ b))[h.length]? = some 13 := by
    rw [List.getElem?_append_right (Nat.le_refl _), Nat.sub_self]
    rfl
  -- Both searches for a line end start behind the blank line, so they see
  -- the body alone.
  have hbehind : ∀ pat : Bytes,
      findFrom pat (h ++ (crlfcrlf ++ b)) (h.length + 4)
        = (find pat b).map (h.length + 4 + ·) := by
    intro pat
    rw [← List.append_assoc]
    have hlen : (h ++ crlfcrlf).length = h.length + 4 := List.length_append
    rw [← hlen]
    exact findFrom_append pat (h ++ crlfcrlf) b
  have hdrop : (h ++ (crlfcrlf ++ b)).drop (h.length + 4) = b := by
    rw [← List.append_assoc]
    exact List.drop_left' List.length_append
  have hlength : (h ++ (crlfcrlf ++ b)).length = h.length + 4 + b.length := by
    rw [List.length_append, List.length_append, ← Nat.add_assoc]
    rfl
  unfold extractBody
  rw [hfirst]
  simp only [Option.orElse_some, hcr, beq_self_eq_true, if_true, hbehind]
  rw [substr, hdrop, firstLine]
  cases find crlf b with
  | some i =>
      simp only [Option.map_some, Option.orElse_some, Option.getD_some,
        Nat.add_sub_cancel_left]
  | none =>
      cases find lf b with
      | some i =>
          simp only [Option.map_some, Option.map_none, Option.orElse_none,
            Option.getD_some, Nat.add_sub_cancel_left]
      | none =>
          simp only [Option.map_none, Option.orElse_none, Option.getD_none,
            hlength, Nat.add_sub_cancel_left]

-- ============================================================== its users

section Users

variable {json : Bytes → JsonResult} {buffer args : Bytes}
  {argType : ArgType}

/-- `get_args` returns the body. -/
theorem getArgs_ok {desired : Bytes} {filter : Bytes → Except Exn Bool}
    (hargs : getArgs buffer desired filter = .ok args) :
    extractBody buffer = .ok args := by
  cases hbody : extractBody buffer with
  | error e =>
      rw [getArgs_of_noBody hbody] at hargs
      cases hargs
  | ok body =>
      by_cases hct : getContentType buffer = some desired
      · rw [getArgs_of_desired hbody hct] at hargs
        obtain ⟨valid, -, hvalid⟩ := Loads.bind_ok hargs
        split at hvalid
        next =>
          cases hvalid
          rfl
        next => cases hvalid
      · obtain ⟨e, he, -⟩ := getArgs_of_other hbody hct
        cases hargs.symm.trans he

/-- So does `body_any`. -/
theorem bodyAny_ok (hargs : bodyAny json buffer = .ok args) :
    extractBody buffer = .ok args := by
  cases hbody : extractBody buffer with
  | error e =>
      rw [bodyAny, hbody] at hargs
      cases hargs
  | ok body =>
      by_cases hct : getContentType buffer = some jsonType
      · rw [bodyAny_of_json hbody hct] at hargs
        obtain ⟨valid, -, hvalid⟩ := Loads.bind_ok hargs
        split at hvalid
        next =>
          cases hvalid
          rfl
        next => cases hvalid
      · by_cases hform : getContentType buffer = some formType
        · rw [bodyAny_of_form hbody hform] at hargs
          split at hargs
          next =>
            cases hargs
            rfl
          next => cases hargs
        · rw [bodyAny_of_other hbody hct hform] at hargs
          cases hargs
          rfl

/-- Arguments that are looked for in the body are the body. -/
theorem extractArgs_ok (hreads : ReadsBody buffer argType)
    (hargs : extractArgs json buffer argType = .ok args) :
    extractBody buffer = .ok args := by
  by_cases hjson : argType = .bodyJson
  · subst hjson
    exact getArgs_ok hargs
  · by_cases hurl : argType = .bodyUrl
    · subst hurl
      exact getArgs_ok hargs
    · rw [extractArgs_of_reads hreads hjson hurl] at hargs
      exact bodyAny_ok hargs

/-- A request the parser stores has the body of its buffer. -/
theorem parser_body {env : Env} {txn : Txn} (hread : env.readEc = .ok)
    {request : Request} {router : Router}
    (hstores : ∀ next, parserProcess env next txn
      = next { txn with request := request, router := router }) :
    extractBody env.buffer = .ok request.body :=
  (parseReads_of_stores hread txn hstores).body

/-- A response a chunk is relayed with has the body of the chunk. -/
theorem relayChunk_body {env : Env} {txn : Txn} {data accepted : Bytes}
    {response : Response}
    (hsent : (relayChunk env true data txn).2.trace
      = txn.trace ++ [.head response accepted]) :
    extractBody data = .ok response.body := by
  cases hparse : relayParse data with
  | error e =>
      obtain ⟨r, hrun⟩ := relayChunk_of_error env hparse txn
      rw [hrun] at hsent
      exact absurd (congrArg List.length hsent) (by simp)
  | ok parsed =>
      obtain ⟨body, headers⟩ := parsed
      rw [relayChunk_of_ok env hparse txn] at hsent
      have hevent := List.append_cancel_left hsent
      cases hevent
      unfold relayParse at hparse
      split at hparse
      next => cases hparse
      next =>
        obtain ⟨body', hbody, hparse⟩ := Loads.bind_ok hparse
        obtain ⟨headers', -, hparse⟩ := Loads.bind_ok hparse
        cases hparse
        exact hbody

end Users

-- =============================================================== the body

/-- The text `b` is taken for the body of `w`: by `extract_body`, by the
parser, by the argument checks that read the body, and by the script
callback. -/
structure IsBodyOf (w b : Bytes) : Prop where
  extracted : extractBody w = .ok b
  request : ∀ (env : Env) (txn : Txn), env.readEc = .ok → env.buffer = w →
    ∀ request router, (∀ next, parserProcess env next txn
      = next { txn with request := request, router := router }) →
    request.body = b
  args : ∀ json argType args, ReadsBody w argType →
    extractArgs json w argType = .ok args → args = b
  relayed : ∀ env txn response accepted,
    (relayChunk env true w txn).2.trace
      = txn.trace ++ [.head response accepted] → response.body = b

/-- What stands behind the first blank line is taken for the body exactly
where it holds no LF. -/
theorem body_is_rest_iff
    (hfirst : find crlfcrlf (h ++ (crlfcrlf ++ b)) = some h.length) :
    IsBodyOf (h ++ (crlfcrlf ++ b)) b ↔ 10 ∉ b := by
  have hbody := extractBody_firstLine hfirst
  rw [← firstLine_eq_self]
  constructor
  · intro hall
    exact Except.ok.inj (hbody.symm.trans hall.extracted)
  · intro hsame
    rw [hsame] at hbody
    refine ⟨hbody, ?_, ?_, ?_⟩
    · intro env txn hread hbuffer request router hstores
      have hstored := parser_body hread hstores
      rw [hbuffer] at hstored
      exact Except.ok.inj (hstored.symm.trans hbody)
    · intro json argType args hreads hargs
      exact Except.ok.inj ((extractArgs_ok hreads hargs).symm.trans hbody)
    · intro env txn response accepted hsent
      exact Except.ok.inj ((relayChunk_body hsent).symm.trans hbody)

/-- A request with a body of one line. -/
theorem body_is_rest_one_line :
    IsBodyOf (bytes "POST /sum HTTP/1.1\r\nHost: localhost\r\n\r\na=1&b=2")
      (bytes "a=1&b=2") :=
  (body_is_rest_iff (h := bytes "POST /sum HTTP/1.1\r\nHost: localhost")
    (by decide)).mpr (by decide)

/-- A response with a body of two lines. -/
def twoLines : Bytes := bytes "HTTP/1.1 200 OK\r\nA: b\r\n\r\none\ntwo"

/-- The second line is lost. -/
theorem second_line_is_lost :
    twoLines = bytes "HTTP/1.1 200 OK\r\nA: b"
        ++ (crlfcrlf ++ bytes "one\ntwo")
      ∧ find crlfcrlf twoLines
          = some (bytes "HTTP/1.1 200 OK\r\nA: b").length
      ∧ extractBody twoLines = .ok (bytes "one")
      ∧ ¬ IsBodyOf twoLines (bytes "one\ntwo") := by
  have hbody : extractBody twoLines = .ok (bytes "one") := rfl
  refine ⟨rfl, by decide, hbody, fun h => ?_⟩
  exact absurd (Except.ok.inj (h.extracted.symm.trans hbody)) (by decide)

end CgiWebServer
