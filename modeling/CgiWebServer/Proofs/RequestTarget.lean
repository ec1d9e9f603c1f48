/-
Which line the request target comes from.

`extract_method` looks for its space in the first line only;
`get_request_target` looks for its two in the whole buffer. They speak of
the same line exactly where the first line has two spaces itself. A line
with fewer is refused by neither: the target runs on into the headers,
unless the whole buffer has fewer than two spaces.
-/
import CgiWebServer.Proofs.Body
import CgiWebServer.Proofs.Request

namespace CgiWebServer

open Scan

-- ========================================================== the first line

/-- The request line: the bytes before the first CRLF. -/
def requestLineOf (buffer : Bytes) : Option Bytes :=
  (find crlf buffer).map buffer.take

/-- `t` stands between the first and the second space of a text. -/
def Between (text t : Bytes) : Prop :=
  ∃ m rest, text = m ++ (sp ++ (t ++ (sp ++ rest))) ∧ 32 ∉ m ∧ 32 ∉ t

/-- `t` stands between the first and the second space of the request
line. -/
def IsTarget (buffer t : Bytes) : Prop :=
  ∃ line, requestLineOf buffer = some line ∧ Between line t

/-- The request line leads the buffer. -/
theorem requestLineOf_starts {buffer line : Bytes}
    (h : requestLineOf buffer = some line) : line <+: buffer := by
  obtain ⟨i, -, rfl⟩ := Option.map_eq_some_iff.mp h
  exact List.take_prefix i buffer

/-- The request line holds no CRLF. -/
theorem requestLineOf_no_crlf {buffer line : Bytes}
    (h : requestLineOf buffer = some line) : ¬ crlf <:+: line := by
  obtain ⟨i, hfind, rfl⟩ := Option.map_eq_some_iff.mp h
  exact not_infix_take_of_find (by decide) hfind

-- ================================================================= spaces

variable {text t buffer : Bytes}

/-- A text with a first and a second space has at least two. -/
theorem two_le_count_of_between (h : Between text t) :
    2 ≤ text.count 32 := by
  obtain ⟨m, rest, rfl, -, -⟩ := h
  have hsp : List.count 32 sp = 1 := by decide
  simp only [List.count_append, hsp]
  omega

/-- A text with at least two spaces has a first and a second. -/
theorem between_of_two_le_count (h : 2 ≤ text.count 32) :
    ∃ t, Between text t := by
  have hfirst : (32 : Byte) ∈ text := List.count_pos_iff.mp (by omega)
  obtain ⟨m, tail, rfl, hm⟩ := List.eq_append_cons_of_mem hfirst
  rw [List.count_append, List.count_eq_zero_of_not_mem hm,
    List.count_cons_self] at h
  have hsecond : (32 : Byte) ∈ tail := List.count_pos_iff.mp (by omega)
  obtain ⟨t, rest, rfl, ht⟩ := List.eq_append_cons_of_mem hsecond
  exact ⟨t, m, rest, rfl, hm, ht⟩

/-- What stands between the first two spaces of a text stands there in
every longer one. -/
theorem Between.of_prefix {longer : Bytes} (h : Between text t)
    (hinit : text <+: longer) : Between longer t := by
  obtain ⟨m, rest, rfl, hm, ht⟩ := h
  obtain ⟨more, rfl⟩ := hinit
  exact ⟨m, rest ++ more, by simp only [List.append_assoc], hm, ht⟩

theorem Between.infix (h : Between text t) : t <:+: text := by
  obtain ⟨m, rest, rfl, -, -⟩ := h
  refine ⟨m ++ sp, sp ++ rest, ?_⟩
  simp only [List.append_assoc]

-- ============================================================= the target

theorem getRequestTarget_of_between (h : Between buffer t) :
    getRequestTarget buffer = .ok t := by
  obtain ⟨m, rest, rfl, hm, ht⟩ := h
  exact getRequestTarget_between rest hm ht

/-- With fewer than two spaces there is no target. -/
theorem getRequestTarget_of_few (h : buffer.count 32 < 2) :
    ∃ e, getRequestTarget buffer = .error e ∧ Refuses .badRequest e := by
  cases htarget : getRequestTarget buffer with
  | error e => exact ⟨e, rfl, (plain_getRequestTarget htarget).refuses⟩
  | ok t =>
      exfalso
      -- One space is not enough for the second search.
      unfold getRequestTarget at htarget
      split at htarget
      case h_1 => cases htarget
      case h_2 a ha =>
        split at htarget
        case h_1 => cases htarget
        case h_2 b hb =>
          obtain ⟨i, hi, -⟩ := Option.map_eq_some_iff.mp hb
          have hone : (32 : Byte) ∈ buffer.drop (a + 1) :=
            (infix_of_find hi).subset List.mem_cons_self
          obtain ⟨-, hpre, -⟩ := find_eq_some_iff.mp ha
          obtain ⟨tail, htail⟩ := hpre
          have hrest : buffer.drop (a + 1) = tail := by
            rw [← List.drop_drop, ← htail]
            rfl
          have hcount : buffer.count 32
              = (buffer.take a).count 32 + (1 + tail.count 32) := by
            conv => lhs; rw [← List.take_append_drop a buffer, ← htail]
            rw [List.count_append, List.count_append]
            rfl
          rw [hrest] at hone
          have hpos := List.count_pos_iff.mpr hone
          omega

-- ============================================================ the argument

/-- Arguments are the query string, the body or nothing. -/
theorem extractArgs_source {json : Bytes → JsonResult} {args : Bytes}
    {argType : ArgType} (h : extractArgs json buffer argType = .ok args) :
    args = [] ∨ extractQueryString buffer = .ok args
      ∨ extractBody buffer = .ok args := by
  cases argType with
  | none => exact Or.inl (Except.ok.inj h).symm
  | queryString => exact Or.inr (Or.inl h)
  | any =>
      cases hquery : extractQueryString buffer with
      | error e =>
          rw [extractArgs, argsAny, hquery] at h
          cases h
      | ok query =>
          cases query with
          | nil =>
              have hreads : ReadsBody buffer .any := hquery
              exact Or.inr (Or.inr (extractArgs_ok hreads h))
          | cons b rest =>
              rw [extractArgs, argsAny, hquery] at h
              exact Or.inr (Or.inl h)
  | bodyAny =>
      have hreads : ReadsBody buffer .bodyAny := trivial
      exact Or.inr (Or.inr (extractArgs_ok hreads h))
  | bodyJson =>
      have hreads : ReadsBody buffer .bodyJson := trivial
      exact Or.inr (Or.inr (extractArgs_ok hreads h))
  | bodyUrl =>
      have hreads : ReadsBody buffer .bodyUrl := trivial
      exact Or.inr (Or.inr (extractArgs_ok hreads h))

/-- The first line of a text holds no CRLF. -/
theorem firstLine_no_crlf (b : Bytes) : ¬ crlf <:+: firstLine b := by
  unfold firstLine
  cases hcrlf : find crlf b with
  | some i => exact not_infix_take_of_find (by decide) hcrlf
  | none =>
      intro hin
      exact find_eq_none_iff.mp hcrlf
        (hin.trans (List.take_prefix _ b).isInfix)

/-- A body is the first line of what stands behind some place. -/
theorem extractBody_is_firstLine {body : Bytes}
    (h : extractBody buffer = .ok body) :
    ∃ pos, body = firstLine (buffer.drop pos) := by
  unfold extractBody at h
  split at h
  case h_1 => cases h
  case h_2 start _ =>
    dsimp only at h
    generalize start + _ = pos at h
    refine ⟨pos, ?_⟩
    rw [← Except.ok.inj h, firstLine, substr, findFrom, findFrom]
    cases find crlf (buffer.drop pos) with
    | some i =>
        simp only [Option.map_some, Option.orElse_some, Option.getD_some,
          Nat.add_sub_cancel_left]
    | none =>
        cases find lf (buffer.drop pos) with
        | some i =>
            simp only [Option.map_some, Option.map_none,
              Option.orElse_none, Option.getD_some,
              Nat.add_sub_cancel_left]
        | none =>
            simp only [Option.map_none, Option.orElse_none,
              Option.getD_none, List.length_drop]

-- ========================================================== path and query

/-- The path of a target. -/
def pathOf (target : Bytes) : Bytes := target.takeWhile (· ≠ 63)

/-- The query string of a target. -/
def queryOf (target : Bytes) : Bytes := (target.dropWhile (· ≠ 63)).tail

/-- A target with a `?`, cut at the first one. -/
theorem parts_of_question {path : Bytes} (query : Bytes)
    (hpath : 63 ∉ path) :
    pathOf (path ++ 63 :: query) = path
      ∧ queryOf (path ++ 63 :: query) = query := by
  have hall : ∀ b ∈ path, decide (b ≠ 63) = true := fun b hb =>
    decide_eq_true fun h => hpath (h ▸ hb)
  rw [pathOf, queryOf, List.takeWhile_append_of_pos hall,
    List.dropWhile_append_of_pos hall]
  exact ⟨List.append_nil path, rfl⟩

/-- A target without one. -/
theorem parts_of_no_question {target : Bytes} (h : 63 ∉ target) :
    pathOf target = target ∧ queryOf target = [] := by
  have hall : ∀ b ∈ target, decide (b ≠ 63) = true := fun b hb =>
    decide_eq_true fun hb' => h (hb' ▸ hb)
  rw [pathOf, queryOf, List.takeWhile_eq_self_iff.mpr hall,
    List.dropWhile_eq_nil_iff.mpr hall]
  exact ⟨rfl, rfl⟩

/-- What the extractors cut out of a target. -/
theorem find_question (target : Bytes) :
    ((find (bytes "?") target).map target.take).getD target = pathOf target
      ∧ ((find (bytes "?") target).map fun q => target.drop (q + 1)).getD []
        = queryOf target := by
  by_cases hmem : (63 : Byte) ∈ target
  · obtain ⟨path, query, rfl, hpath⟩ := List.eq_append_cons_of_mem hmem
    have hfind : find (bytes "?") (path ++ 63 :: query)
        = some path.length := find_field query hpath
    rw [hfind, (parts_of_question query hpath).1,
      (parts_of_question query hpath).2]
    refine ⟨List.take_left, ?_⟩
    rw [Option.map_some, Option.getD_some, ← List.drop_drop, List.drop_left]
    rfl
  · have hfind : find (bytes "?") target = none := find_none_of_head hmem
    rw [hfind, (parts_of_no_question hmem).1, (parts_of_no_question hmem).2]
    exact ⟨rfl, rfl⟩

/-- What a request takes from its first line stays in it. -/
structure Clean (buffer : Bytes) (request : Request) : Prop where
  line : ∃ line, requestLineOf buffer = some line
    ∧ request.endpointUrl <:+: line ∧ request.query <:+: line
    ∧ (request.args <:+: line ∨ request.args = request.body)
  no_crlf : ¬ crlf <:+: request.endpointUrl ∧ ¬ crlf <:+: request.query
    ∧ ¬ crlf <:+: request.args

/-- The target is the one of the request line, for every function that
reads it. -/
structure TargetStays (buffer : Bytes) : Prop where
  target : ∀ t, getRequestTarget buffer = .ok t ↔ IsTarget buffer t
  refused : (¬ ∃ t, IsTarget buffer t) →
    ∃ e, getRequestTarget buffer = .error e ∧ Refuses .badRequest e
  endpoint : ∀ p, extractEndpoint buffer = .ok p →
    ∃ t, IsTarget buffer t ∧ p = pathOf t
  query : ∀ q, extractQueryString buffer = .ok q →
    ∃ t, IsTarget buffer t ∧ q = queryOf t
  sameLine : ∀ m t, extractMethod buffer = .ok m →
    getRequestTarget buffer = .ok t →
    ∃ name rest, requestLineOf buffer
        = some (name ++ (sp ++ (t ++ (sp ++ rest))))
      ∧ methodStrToEnum name = m
  request : ∀ (env : Env) (txn : Txn), env.readEc = .ok →
    env.buffer = buffer →
    ∀ request router, (∀ next, parserProcess env next txn
      = next { txn with request := request, router := router }) →
    Clean buffer request

theorem getRequestTarget_of_isTarget (h : IsTarget buffer t) :
    getRequestTarget buffer = .ok t := by
  obtain ⟨line, hline, hbetween⟩ := h
  exact getRequestTarget_of_between
    (hbetween.of_prefix (requestLineOf_starts hline))

/-- A target that is found is the request line's, where that has two
spaces or the buffer fewer. -/
theorem isTarget_of_ok (hcond : (∃ line, requestLineOf buffer = some line
      ∧ 2 ≤ line.count 32) ∨ buffer.count 32 < 2)
    (h : getRequestTarget buffer = .ok t) : IsTarget buffer t := by
  rcases hcond with ⟨line, hline, htwo⟩ | hfew
  · obtain ⟨t', hbetween⟩ := between_of_two_le_count htwo
    have htarget : IsTarget buffer t' := ⟨line, hline, hbetween⟩
    have hsame := h.symm.trans (getRequestTarget_of_isTarget htarget)
    cases hsame
    exact htarget
  · obtain ⟨e, he, -⟩ := getRequestTarget_of_few hfew
    cases h.symm.trans he

theorem isTarget_of_endpoint {p : Bytes}
    (hok : ∀ t, getRequestTarget buffer = .ok t → IsTarget buffer t)
    (h : extractEndpoint buffer = .ok p) :
    ∃ t, IsTarget buffer t ∧ p = pathOf t := by
  cases htarget : getRequestTarget buffer with
  | error e =>
      rw [extractEndpoint, htarget] at h
      cases h
  | ok t =>
      rw [extractEndpoint_of_target htarget, (find_question t).1] at h
      exact ⟨t, hok t htarget, (Except.ok.inj h).symm⟩

theorem isTarget_of_query {q : Bytes}
    (hok : ∀ t, getRequestTarget buffer = .ok t → IsTarget buffer t)
    (h : extractQueryString buffer = .ok q) :
    ∃ t, IsTarget buffer t ∧ q = queryOf t := by
  cases htarget : getRequestTarget buffer with
  | error e =>
      rw [extractQueryString, htarget] at h
      cases h
  | ok t =>
      rw [extractQueryString_of_target htarget, (find_question t).2] at h
      exact ⟨t, hok t htarget, (Except.ok.inj h).symm⟩

/-- The path and the query of the request line's target are in that
line. -/
theorem IsTarget.parts (h : IsTarget buffer t) :
    ∃ line, requestLineOf buffer = some line
      ∧ pathOf t <:+: line ∧ queryOf t <:+: line := by
  obtain ⟨line, hline, hbetween⟩ := h
  refine ⟨line, hline, ?_, ?_⟩
  · exact (List.takeWhile_prefix _).isInfix.trans hbetween.infix
  · exact ((List.tail_suffix _).trans (List.dropWhile_suffix _)).isInfix.trans
      hbetween.infix

/-- A request that is read off a buffer whose target stays is clean. -/
theorem clean_of_reads {env : Env} {router router' : Router}
    {request : Request}
    (hok : ∀ t, getRequestTarget buffer = .ok t → IsTarget buffer t)
    (h : ParseReads env buffer router request router') :
    Clean buffer request := by
  obtain ⟨argType, hasked, hargs⟩ := h.asked
  obtain ⟨t, ht, hurl⟩ := isTarget_of_endpoint hok hasked.found.endpoint
  obtain ⟨t', ht', hquery⟩ := isTarget_of_query hok h.query
  have hsame : t' = t := Except.ok.inj
    ((getRequestTarget_of_isTarget ht').symm.trans
      (getRequestTarget_of_isTarget ht))
  subst hsame
  obtain ⟨line, hline, hpathIn, hqueryIn⟩ := ht.parts
  rw [← hurl] at hpathIn
  rw [← hquery] at hqueryIn
  have hclean := requestLineOf_no_crlf hline
  have hargsIn : request.args <:+: line ∨ request.args = request.body := by
    rcases extractArgs_source hargs with hnil | hfrom | hfrom
    · rw [hnil]
      exact Or.inl (List.nil_infix)
    · rw [Except.ok.inj (hfrom.symm.trans h.query)]
      exact Or.inl hqueryIn
    · exact Or.inr (Except.ok.inj (hfrom.symm.trans h.body))
  refine ⟨⟨line, hline, hpathIn, hqueryIn, hargsIn⟩,
    fun hin => hclean (hin.trans hpathIn),
    fun hin => hclean (hin.trans hqueryIn), ?_⟩
  rcases hargsIn with hin | hbody
  · exact fun hcrlf => hclean (hcrlf.trans hin)
  · obtain ⟨pos, hfirst⟩ := extractBody_is_firstLine h.body
    rw [hbody, hfirst]
    exact firstLine_no_crlf _

/-- The method stands in front of the first space of the request line. -/
theorem extractMethod_of_isTarget {m : Method} (h : IsTarget buffer t)
    (hm : extractMethod buffer = .ok m) :
    ∃ name rest, requestLineOf buffer
        = some (name ++ (sp ++ (t ++ (sp ++ rest))))
      ∧ methodStrToEnum name = m := by
  obtain ⟨line, hline, name, rest, rfl, hname, -⟩ := h
  refine ⟨name, rest, hline, ?_⟩
  obtain ⟨i, hfind, htake⟩ := Option.map_eq_some_iff.mp hline
  have hsp : find sp (name ++ (sp ++ (t ++ (sp ++ rest))))
      = some name.length := find_field _ hname
  unfold extractMethod at hm
  simp only [hfind, htake, hsp, List.take_left] at hm
  exact Except.ok.inj hm

/-- The target stays in the request line exactly where that line has two
spaces, or the whole buffer has fewer than two. -/
theorem target_stays_iff (buffer : Bytes) :
    TargetStays buffer
      ↔ (∃ line, requestLineOf buffer = some line ∧ 2 ≤ line.count 32)
        ∨ buffer.count 32 < 2 := by
  constructor
  · intro h
    by_cases htwo : 2 ≤ buffer.count 32
    · obtain ⟨t, hbetween⟩ := between_of_two_le_count htwo
      obtain ⟨line, hline, hin⟩ :=
        (h.target t).mp (getRequestTarget_of_between hbetween)
      exact Or.inl ⟨line, hline, two_le_count_of_between hin⟩
    · exact Or.inr (by omega)
  · intro hcond
    have hok : ∀ t, getRequestTarget buffer = .ok t → IsTarget buffer t :=
      fun t => isTarget_of_ok hcond
    refine ⟨fun t => ⟨hok t, getRequestTarget_of_isTarget⟩, fun hnone => ?_,
      fun p => isTarget_of_endpoint hok, fun q => isTarget_of_query hok,
      fun m t hm ht => extractMethod_of_isTarget (hok t ht) hm, ?_⟩
    · cases htarget : getRequestTarget buffer with
      | error e => exact ⟨e, rfl, (plain_getRequestTarget htarget).refuses⟩
      | ok t => exact absurd ⟨t, hok t htarget⟩ hnone
    · intro env txn hread hbuffer request router hstores
      have hreads := parseReads_of_stores hread txn hstores
      rw [hbuffer] at hreads
      exact clean_of_reads hok hreads

/-- A request line with one space. -/
def oneSpace : Bytes :=
  bytes "GET /search?q=1\r\nCookie: a=b\r\n\r\n"

/-- The header's name ends up in the query string. -/
theorem header_in_query :
    ¬ TargetStays oneSpace
      ∧ getRequestTarget oneSpace
          = .ok (bytes "/search?q=1\r\nCookie:")
      ∧ extractQueryString oneSpace = .ok (bytes "q=1\r\nCookie:") := by
  refine ⟨fun h => ?_, rfl, rfl⟩
  obtain ⟨line, hline, hbetween⟩ := (h.target _).mp rfl
  have hfirst : requestLineOf oneSpace = some (bytes "GET /search?q=1") :=
    rfl
  have htwo := two_le_count_of_between hbetween
  rw [← Option.some.inj (hfirst.symm.trans hline)] at htwo
  exact absurd htwo (by decide)

end CgiWebServer
