/-
The request round trip: what a client serialises is what the extractors
read back.

# The text

`RequestText` is a request as a client means it: the fields of the
grammar with the bytes each may not hold, carried as fields of the
structure, so that a text whose parts run into each other cannot be
built. `buffer` is its serialisation.

# The argument

Five scanners run over the same bytes. Four of them are settled by one
rule each: the first line holds no CR (`requestLine_no_cr`), so the
first CRLF ends it; neither the method nor the target holds a space, so
the first two spaces surround the target; the path holds no `?`.

The header map needs two inductions over the header list. The first
finds the blank line: a line without CRLF in front of a line that does
not begin with one is skipped with its line end, so the first CRLFCRLF is
the one in front of the body, whatever the body holds
(`find_blank_line`). The second is the loop: from the position behind
any serialised stretch it reads one name and value a turn and stops at
the bound the first induction computed (`extractHeadersLoop_fields`).
-/
import CgiWebServer.Http.Extract

namespace CgiWebServer

open Scan

-- ========================================================== the text

/-- A request as a client means it. -/
structure RequestText where
  method : Method
  path : Bytes
  query : Option Bytes
  version : Bytes
  headers : List (Bytes × Bytes)
  body : Bytes
  method_ok : method ≠ .notAllowed
  path_ok : 32 ∉ path ∧ 63 ∉ path ∧ 13 ∉ path ∧ 10 ∉ path
  query_ok : ∀ q ∈ query, 32 ∉ q ∧ 13 ∉ q ∧ 10 ∉ q
  version_ok : 13 ∉ version ∧ 10 ∉ version
  name_ok : ∀ h ∈ headers,
    13 ∉ h.1 ∧ 10 ∉ h.1 ∧ ¬ headerSplitter <:+: h.1
  value_ok : ∀ h ∈ headers, 13 ∉ h.2 ∧ 10 ∉ h.2

namespace RequestText

/-- The request target: the path, and the query behind a `?`. -/
def target (r : RequestText) : Bytes :=
  match r.query with
  | none => r.path
  | some q => r.path ++ (bytes "?" ++ q)

/-- Method, target and version, one space apart. -/
def requestLine (r : RequestText) : Bytes :=
  methodEnumToStr r.method ++ (sp ++ (r.target ++ (sp ++ r.version)))

end RequestText

/-- `name: value`. -/
def fieldText (h : Bytes × Bytes) : Bytes :=
  h.1 ++ (headerSplitter ++ h.2)

/-- The header lines, each with its line end. -/
def fieldsText : List (Bytes × Bytes) → Bytes
  | [] => []
  | h :: hs => fieldText h ++ (crlf ++ fieldsText hs)

/-- The serialised request. -/
def RequestText.buffer (r : RequestText) : Bytes :=
  r.requestLine ++ (crlf ++ (fieldsText r.headers ++ (crlf ++ r.body)))

-- ================================================== what a field holds

theorem cr_not_mem_method (m : Method) : (13 : Byte) ∉ methodEnumToStr m := by
  cases m <;> decide

theorem sp_not_mem_method (m : Method) : (32 : Byte) ∉ methodEnumToStr m := by
  cases m <;> decide

namespace RequestText

theorem sp_not_mem_target (r : RequestText) : (32 : Byte) ∉ r.target := by
  unfold target
  cases hq : r.query with
  | none => exact r.path_ok.1
  | some q =>
      have hquery := (r.query_ok q hq).1
      have hmark : (32 : Byte) ∉ bytes "?" := by decide
      simp only [List.mem_append, not_or]
      exact ⟨r.path_ok.1, hmark, hquery⟩

theorem cr_not_mem_target (r : RequestText) : (13 : Byte) ∉ r.target := by
  unfold target
  cases hq : r.query with
  | none => exact r.path_ok.2.2.1
  | some q =>
      have hquery := (r.query_ok q hq).2.1
      have hmark : (13 : Byte) ∉ bytes "?" := by decide
      simp only [List.mem_append, not_or]
      exact ⟨r.path_ok.2.2.1, hmark, hquery⟩

/-- The first line holds no CR. -/
theorem requestLine_no_cr (r : RequestText) :
    (13 : Byte) ∉ r.requestLine := by
  have hsp : (13 : Byte) ∉ sp := by decide
  simp only [requestLine, List.mem_append, not_or]
  exact ⟨cr_not_mem_method _, hsp, r.cr_not_mem_target, hsp,
    r.version_ok.1⟩

end RequestText

/-- A text without CR has no CRLF. -/
theorem no_crlf {a : Bytes} (hcr : 13 ∉ a) : ¬ crlf <:+: a :=
  fun hin => hcr (hin.subset List.mem_cons_self)

/-- Header fields that read back as they are: no line end in a line, and
no splitter in a name. -/
def Readable (hs : List (Bytes × Bytes)) : Prop :=
  ∀ h ∈ hs, ¬ headerSplitter <:+: h.1 ∧ ¬ crlf <:+: fieldText h

theorem Readable.tail {h : Bytes × Bytes} {hs : List (Bytes × Bytes)}
    (hok : Readable (h :: hs)) : Readable hs :=
  fun g hg => hok g (List.mem_cons_of_mem _ hg)

/-- Fields without CR read back. -/
theorem readable_of_no_cr {hs : List (Bytes × Bytes)}
    (hname : ∀ h ∈ hs, 13 ∉ h.1 ∧ 10 ∉ h.1 ∧ ¬ headerSplitter <:+: h.1)
    (hvalue : ∀ h ∈ hs, 13 ∉ h.2 ∧ 10 ∉ h.2) : Readable hs := by
  intro h hh
  refine ⟨(hname h hh).2.2, no_crlf ?_⟩
  have hsplit : (13 : Byte) ∉ headerSplitter := by decide
  simp only [fieldText, List.mem_append, not_or]
  exact ⟨(hname h hh).1, hsplit, (hvalue h hh).1⟩

theorem fieldText_ne_nil (h : Bytes × Bytes) : fieldText h ≠ [] := by
  intro hnil
  have := congrArg List.length hnil
  simp [fieldText, headerSplitter_eq] at this

-- ==================================================== the first line

/-- The first CRLF ends a line that holds none. -/
theorem find_crlf_line {line : Bytes} (rest : Bytes)
    (hline : ¬ crlf <:+: line) :
    find crlf (line ++ (crlf ++ rest)) = some line.length :=
  find_pair (by decide) rest hline

/-- `extract_method` reads the method. -/
theorem extractMethod_buffer (r : RequestText) :
    extractMethod r.buffer = .ok r.method := by
  have hline := find_crlf_line
    (fieldsText r.headers ++ (crlf ++ r.body)) (no_crlf r.requestLine_no_cr)
  have hsp : find sp r.requestLine = some (methodEnumToStr r.method).length :=
    find_field _ (sp_not_mem_method r.method)
  unfold extractMethod RequestText.buffer
  rw [hline]
  simp only [List.take_left, hsp]
  rw [RequestText.requestLine, List.take_left,
    methodStrToEnum_methodEnumToStr]

/-- What stands between the first two spaces is the target. -/
theorem getRequestTarget_between {m t : Bytes} (rest : Bytes)
    (hm : 32 ∉ m) (ht : 32 ∉ t) :
    getRequestTarget (m ++ (sp ++ (t ++ (sp ++ rest)))) = .ok t := by
  have hfirst : find sp (m ++ (sp ++ (t ++ (sp ++ rest)))) = some m.length :=
    find_field _ hm
  have hlen : m.length + 1 = (m ++ sp).length := by
    rw [List.length_append, sp_eq]
    rfl
  have hsecond : findFrom sp (m ++ (sp ++ (t ++ (sp ++ rest))))
      (m.length + 1) = some (m.length + 1 + t.length) := by
    rw [hlen, ← List.append_assoc m sp, findFrom_append,
      show find sp (t ++ (sp ++ rest)) = some t.length from find_field _ ht]
    rfl
  have hcut := substr_append (m ++ sp) t (sp ++ rest)
  rw [List.length_append, sp_eq, List.append_assoc] at hcut
  unfold getRequestTarget
  simp only [hfirst, hsecond]
  rw [sp_eq, show m.length + 1 + t.length - m.length - 1 = t.length by omega]
  exact congrArg Except.ok hcut

/-- The target of a request. -/
theorem getRequestTarget_buffer (r : RequestText) :
    getRequestTarget r.buffer = .ok r.target := by
  have hshape : ∃ rest, r.buffer = methodEnumToStr r.method
      ++ (sp ++ (r.target ++ (sp ++ rest))) := by
    refine ⟨r.version
      ++ (crlf ++ (fieldsText r.headers ++ (crlf ++ r.body))), ?_⟩
    simp only [RequestText.buffer, RequestText.requestLine,
      List.append_assoc]
  obtain ⟨rest, hbuf⟩ := hshape
  rw [hbuf]
  exact getRequestTarget_between rest (sp_not_mem_method r.method)
    r.sp_not_mem_target

/-- `extract_endpoint` reads the path. -/
theorem extractEndpoint_buffer (r : RequestText) :
    extractEndpoint r.buffer = .ok r.path := by
  rw [extractEndpoint_of_target (getRequestTarget_buffer r)]
  unfold RequestText.target
  cases r.query with
  | none =>
      rw [show find (bytes "?") r.path = none from
        find_none_of_head r.path_ok.2.1]
      rfl
  | some q =>
      rw [show find (bytes "?") (r.path ++ (bytes "?" ++ q))
          = some r.path.length from find_field q r.path_ok.2.1]
      simp only [Option.map_some, Option.getD_some, List.take_left]

/-- `extract_query_string` reads the query, empty if there is none. -/
theorem extractQueryString_buffer (r : RequestText) :
    extractQueryString r.buffer = .ok (r.query.getD []) := by
  rw [extractQueryString_of_target (getRequestTarget_buffer r)]
  unfold RequestText.target
  cases r.query with
  | none =>
      rw [show find (bytes "?") r.path = none from
        find_none_of_head r.path_ok.2.1]
      rfl
  | some q =>
      rw [show find (bytes "?") (r.path ++ (bytes "?" ++ q))
          = some r.path.length from find_field q r.path_ok.2.1]
      have hdrop : (r.path ++ (bytes "?" ++ q)).drop (r.path.length + 1)
          = q := by
        rw [← List.append_assoc]
        exact List.drop_left' (by simp; rfl)
      simp only [Option.map_some, hdrop, Option.getD_some]

-- ==================================================== the blank line

/-- The first blank line is the one in front of the body, whatever the
body holds. -/
theorem find_blank_line {hs : List (Bytes × Bytes)} (body : Bytes)
    (hok : Readable hs) :
    ∀ {line : Bytes}, ¬ crlf <:+: line →
      find crlfcrlf (line ++ (crlf ++ (fieldsText hs ++ (crlf ++ body))))
        = some (line.length + (fieldsText hs).length) := by
  induction hs with
  | nil =>
      intro line hline
      exact find_double_here (by decide) hline
  | cons h hs ih =>
      intro line hline
      have hfield := (hok h List.mem_cons_self).2
      have hhead : ¬ crlf <+: fieldsText (h :: hs) ++ (crlf ++ body) := by
        intro hpre
        -- A field is not empty, so its line end is not at its start.
        have hfound := find_crlf_line (fieldsText hs ++ (crlf ++ body)) hfield
        obtain ⟨-, -, hfirst⟩ := find_eq_some_iff.mp hfound
        refine hfirst 0 (List.length_pos_iff.mpr (fieldText_ne_nil h)) ?_
        simpa only [fieldsText, List.append_assoc, List.drop_zero] using hpre
      have hrest := ih hok.tail hfield
      have hskip : find crlfcrlf
            (line ++ (crlf ++ (fieldsText (h :: hs) ++ (crlf ++ body))))
          = (find crlfcrlf (fieldsText (h :: hs) ++ (crlf ++ body))).map
              (line.length + 2 + ·) :=
        find_double_skip (by decide) hline hhead
      rw [hskip]
      simp only [fieldsText, List.append_assoc] at hrest ⊢
      rw [hrest]
      simp only [Option.map_some, List.length_append, crlf_eq,
        List.length_cons, List.length_nil, Option.some.injEq]
      omega

-- ===================================================== the header map

/-- The map a header list means: each name with its last value. -/
def headerMap (hs : List (Bytes × Bytes)) (m : Headers) : Headers :=
  hs.foldl (fun m h => m.insert h.1 h.2) m

/-- A turn of the loop in front of a serialised field reads that field. -/
theorem extractHeadersLoop_field {h : Bytes × Bytes}
    (hname : ¬ headerSplitter <:+: h.1) (hline : ¬ crlf <:+: fieldText h)
    (front rest : Bytes) {headersEnd : Nat}
    (hlt : front.length < headersEnd) (fuel : Nat) (m : Headers) :
    extractHeadersLoop (front ++ (fieldText h ++ (crlf ++ rest))) headersEnd
        (fuel + 1) front.length m
      = extractHeadersLoop (front ++ (fieldText h ++ (crlf ++ rest)))
          headersEnd fuel (front ++ (fieldText h ++ crlf)).length
          (m.insert h.1 h.2) := by
  -- The field holds no line end and its name no separator, so both searches
  -- find the ones written behind them.
  have hend : findFrom crlf (front ++ (fieldText h ++ (crlf ++ rest)))
      front.length = some (front.length + (fieldText h).length) := by
    rw [findFrom_append, find_crlf_line _ hline]
    rfl
  have htext : substr (front ++ (fieldText h ++ (crlf ++ rest)))
        front.length (front.length + (fieldText h).length - front.length)
      = fieldText h := by
    rw [Nat.add_sub_cancel_left]
    exact substr_append _ _ _
  have hnil : (fieldText h).isEmpty = false := by
    rw [List.isEmpty_eq_false_iff]
    exact fieldText_ne_nil h
  have hsplit : find headerSplitter (fieldText h) = some h.1.length :=
    find_pair (by decide) h.2 hname
  have hkey : (fieldText h).take h.1.length = h.1 := by
    rw [fieldText, List.take_left]
  have hval : (fieldText h).drop (h.1.length + headerSplitter.length)
      = h.2 := by
    rw [fieldText, ← List.append_assoc, ← List.length_append,
      List.drop_left]
  have hpos : front.length + (fieldText h).length + crlf.length
      = (front ++ (fieldText h ++ crlf)).length := by
    simp only [List.length_append]
    omega
  rw [extractHeadersLoop, if_neg (Nat.not_le.mpr hlt)]
  simp only [hend, htext, hnil, Bool.false_eq_true, if_false, hsplit, hkey,
    hval, hpos]

/-- The loop, from behind any serialised stretch: one name and value a
turn, up to the bound in front of the blank line. -/
theorem extractHeadersLoop_fields (request : Bytes) (headersEnd : Nat)
    (body : Bytes) :
    ∀ (hs : List (Bytes × Bytes)) (front : Bytes) (fuel : Nat)
      (m : Headers),
      Readable hs → request = front ++ (fieldsText hs ++ (crlf ++ body)) →
      front.length + (fieldsText hs).length = headersEnd + 2 →
      hs.length < fuel →
      extractHeadersLoop request headersEnd fuel front.length m
        = .ok (headerMap hs m) := by
  intro hs
  induction hs with
  | nil =>
      intro front fuel m _ _ hend hfuel
      cases fuel with
      | zero => exact absurd hfuel (Nat.not_lt_zero _)
      | succ fuel =>
          simp only [fieldsText, List.length_nil, Nat.add_zero] at hend
          rw [extractHeadersLoop, if_pos (by omega)]
          rfl
  | cons h hs ih =>
      intro front fuel m hok hreq hend hfuel
      obtain ⟨hname, hline⟩ := hok h List.mem_cons_self
      have hpos : 0 < (fieldText h).length :=
        List.length_pos_iff.mpr (fieldText_ne_nil h)
      have hlen : (fieldsText (h :: hs)).length
          = (fieldText h).length + 2 + (fieldsText hs).length := by
        simp only [fieldsText, List.length_append, crlf_eq,
          List.length_cons, List.length_nil]
        omega
      have hreq' : request
          = front ++ (fieldText h
              ++ (crlf ++ (fieldsText hs ++ (crlf ++ body)))) := by
        rw [hreq]
        simp only [fieldsText, List.append_assoc]
      cases fuel with
      | zero => exact absurd hfuel (Nat.not_lt_zero _)
      | succ fuel =>
          have hturn := extractHeadersLoop_field hname hline front
            (fieldsText hs ++ (crlf ++ body))
            (show front.length < headersEnd by omega) fuel m
          rw [← hreq'] at hturn
          rw [hturn]
          exact ih (front ++ (fieldText h ++ crlf)) fuel
            (m.insert h.1 h.2) hok.tail
            (by rw [hreq']; simp only [List.append_assoc])
            (by
              simp only [List.length_append, crlf_eq, List.length_cons,
                List.length_nil]
              omega)
            (by simpa using hfuel)

/-- A header list's map sends each name to its last value. -/
theorem lookup_headerMap (hs : List (Bytes × Bytes)) :
    ∀ (m : Headers) (k : Bytes),
      (headerMap hs m).lookup k
        = (hs.reverse.lookup k).orElse fun _ => m.lookup k := by
  induction hs with
  | nil =>
      intro m k
      rfl
  | cons h hs ih =>
      intro m k
      have hstep : headerMap (h :: hs) m = headerMap hs (m.insert h.1 h.2) :=
        rfl
      rw [hstep, ih, List.reverse_cons, List.lookup_append]
      cases hs.reverse.lookup k with
      | some v => rfl
      | none =>
          obtain ⟨name, value⟩ := h
          by_cases hk : k = name
          · subst hk
            simp [AList.lookup_insert]
          · have hne : (k == name) = false := by simpa using hk
            simp [List.lookup_cons, AList.lookup_insert_ne hk, hne]

/-- Fewer header lines than bytes of header lines. -/
private theorem length_le_fieldsText (hs : List (Bytes × Bytes)) :
    hs.length ≤ (fieldsText hs).length := by
  induction hs with
  | nil => exact Nat.le_refl 0
  | cons h hs ih =>
      simp only [fieldsText, List.length_cons, List.length_append, crlf_eq,
        List.length_nil]
      omega

/-- `extract_headers` reads the map of the header lines between a first
line and a blank line. -/
theorem extractHeaders_text {line : Bytes} {hs : List (Bytes × Bytes)}
    (body : Bytes) (hline : ¬ crlf <:+: line) (hok : Readable hs) :
    extractHeaders (line ++ (crlf ++ (fieldsText hs ++ (crlf ++ body))))
      = .ok (headerMap hs ∅) := by
  have hblank := find_blank_line body hok hline
  have hfirst := find_crlf_line (fieldsText hs ++ (crlf ++ body)) hline
  rw [← findFrom_zero] at hfirst
  unfold extractHeaders
  simp only [hblank, hfirst]
  have hloop := extractHeadersLoop_fields
    (line ++ (crlf ++ (fieldsText hs ++ (crlf ++ body))))
    (line.length + (fieldsText hs).length) body hs (line ++ crlf)
    (line ++ (crlf ++ (fieldsText hs ++ (crlf ++ body)))).length ∅ hok
    (by rw [List.append_assoc])
    (by
      simp only [List.length_append, crlf_eq, List.length_cons,
        List.length_nil]
      omega)
    (by
      have := length_le_fieldsText hs
      simp only [List.length_append, crlf_eq, List.length_cons,
        List.length_nil]
      omega)
  rw [show (line ++ crlf).length = line.length + crlf.length from
    List.length_append] at hloop
  exact hloop

/-- `extract_headers` reads the header map of a request. -/
theorem extractHeaders_buffer (r : RequestText) :
    extractHeaders r.buffer = .ok (headerMap r.headers ∅) :=
  extractHeaders_text r.body (no_crlf r.requestLine_no_cr)
    (readable_of_no_cr r.name_ok r.value_ok)

/-- Parsing undoes serialising: method, path, query and header map come
back as they were written, each name with its last value, and no
extractor throws. -/
theorem extract_buffer (r : RequestText) :
    extractMethod r.buffer = .ok r.method
      ∧ extractEndpoint r.buffer = .ok r.path
      ∧ extractQueryString r.buffer = .ok (r.query.getD [])
      ∧ ∃ m : Headers, extractHeaders r.buffer = .ok m
          ∧ ∀ name, m.lookup name = r.headers.reverse.lookup name := by
  refine ⟨extractMethod_buffer r, extractEndpoint_buffer r,
    extractQueryString_buffer r, headerMap r.headers ∅,
    extractHeaders_buffer r, fun name => ?_⟩
  rw [lookup_headerMap, AList.lookup_empty]
  cases r.headers.reverse.lookup name <;> rfl

end CgiWebServer
