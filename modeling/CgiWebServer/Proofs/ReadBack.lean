/-
A head reads back as the response it was built from.

A response is `Legible` if neither its status line nor a header field holds
a line end and no name holds the splitter. The server's own fields are of
that form: constants, numbers, a date, a list of methods, a token. A
script's line and fields are too, since they are what the extractors cut
out between two line ends. So every head of a session is the
serialisation of a legible response, and what `find_blank_line` and
`extractHeaders_text` say of a request's text holds of it: nothing in a
header value starts a new line, a second head or the body.
-/
import CgiWebServer.Proofs.Authorization
import CgiWebServer.Proofs.Request
import CgiWebServer.Proofs.ResponseHeads

namespace CgiWebServer

open Process
open Scan (find findFrom firstAt_of_find not_infix_take_of_find)

-- ================================================================ legible

/-- A field that reads back: no line end, and no splitter in its name. -/
def FieldReads (name val : Bytes) : Prop :=
  ¬ headerSplitter <:+: name ∧ ¬ crlf <:+: fieldText (name, val)

/-- A response whose status line and fields read back. -/
structure Legible (r : Response) : Prop where
  line : ¬ crlf <:+: r.statusMsg
  fields : ∀ k v, r.headers.lookup k = some v → FieldReads k v

theorem fieldReads_of_no_cr {name val : Bytes}
    (hname : 13 ∉ name ∧ ¬ headerSplitter <:+: name) (hval : 13 ∉ val) :
    FieldReads name val := by
  refine ⟨hname.2, no_crlf ?_⟩
  have hsplit : (13 : Byte) ∉ headerSplitter := by decide
  simp only [fieldText, List.mem_append, not_or]
  exact ⟨hname.1, hsplit, hval⟩

theorem Legible.addHeader {r : Response} (h : Legible r) {name val : Bytes}
    (hfield : FieldReads name val) : Legible (r.addHeader name val) := by
  refine ⟨h.line, fun k v hlookup => ?_⟩
  rw [Response.addHeader_headers] at hlookup
  by_cases hk : k = name
  · subst hk
    rw [AList.lookup_insert] at hlookup
    exact Option.some.inj hlookup ▸ hfield
  · rw [AList.lookup_insert_ne hk] at hlookup
    exact h.fields k v hlookup

theorem Legible.addHeaders {r : Response} (h : Legible r) {hs : Headers}
    (hfields : ∀ k v, hs.lookup k = some v → FieldReads k v) :
    Legible (r.addHeaders hs) := by
  refine ⟨h.line, fun k v hlookup => ?_⟩
  rw [Response.lookup_addHeaders, Option.or_eq_some_iff] at hlookup
  rcases hlookup with hnew | ⟨-, hold⟩
  · exact hfields k v hnew
  · exact h.fields k v hold

-- =================================================== what the server writes

theorem no_cr_toStr (n : Int) : (13 : Byte) ∉ toStr n := by
  intro h
  rcases minus_or_digit_of_mem_toStr h with hminus | hdigit
  · exact absurd hminus (by decide)
  · exact absurd hdigit (by decide)

theorem no_cr_twoDigits (n : Nat) : (13 : Byte) ∉ twoDigits n := by
  have hzero : (13 : Byte) ∉ if n < 10 then bytes "0" else [] := by
    split
    · decide
    · exact List.not_mem_nil
  simp only [twoDigits, List.mem_append, not_or]
  exact ⟨hzero, no_cr_toStr _⟩

theorem no_cr_getTimeStamp (t : GmTime) : (13 : Byte) ∉ getTimeStamp t := by
  have hweekday : ∀ d : Fin 7, (13 : Byte) ∉ weekdayNames.getD d [] := by
    decide
  have hmonth : ∀ m : Fin 12, (13 : Byte) ∉ monthNames.getD m [] := by
    decide
  have hcomma : (13 : Byte) ∉ bytes ", " := by decide
  have hspace : (13 : Byte) ∉ bytes " " := by decide
  have hcolon : (13 : Byte) ∉ bytes ":" := by decide
  have hzone : (13 : Byte) ∉ bytes " GMT" := by decide
  simp only [getTimeStamp, List.mem_append, not_or, hweekday, hmonth,
    hcomma, hspace, hcolon, hzone, no_cr_twoDigits, no_cr_toStr,
    not_false_eq_true, and_self]

theorem bytes_append (a b : String) : bytes (a ++ b) = bytes a ++ bytes b := by
  rw [bytes, String.toList_append, List.map_append]
  rfl

theorem no_cr_getStatusMsg (c : Code) : (13 : Byte) ∉ getStatusMsg c := by
  have hreason : ∀ e ∈ statusMsgs, (13 : Byte) ∉ bytes e.2 := by decide
  have hversion : (13 : Byte) ∉ bytes "HTTP/1.1 " := by decide
  have hspace : (13 : Byte) ∉ bytes " " := by decide
  unfold getStatusMsg
  split
  next reason hlookup =>
    obtain ⟨before, after, hsplit, -⟩ := List.lookup_eq_some_iff.mp hlookup
    have hmem : (c.val, reason) ∈ statusMsgs :=
      hsplit ▸ List.mem_append_right _ List.mem_cons_self
    show (13 : Byte) ∉ bytes ("HTTP/1.1 " ++ toString c.val ++ " " ++ reason)
    simp only [bytes_append, List.mem_append, not_or]
    exact ⟨⟨⟨hversion, no_cr_toStr c.val⟩, hspace⟩, hreason _ hmem⟩
  next => decide

theorem no_cr_getMethodsStr (methods : List Method) :
    (13 : Byte) ∉ OptionsHandler.getMethodsStr methods := by
  have hcomma : (13 : Byte) ∉ bytes ", " := by decide
  unfold OptionsHandler.getMethodsStr
  induction methods with
  | nil => exact List.not_mem_nil
  | cons m rest ih =>
      cases rest with
      | nil =>
          rw [List.map_singleton, List.intercalate_singleton]
          exact cr_not_mem_method m
      | cons m' rest =>
          rw [List.map_cons, List.map_cons, List.intercalate_cons_cons]
          simp only [List.mem_append, not_or]
          exact ⟨⟨cr_not_mem_method m, hcomma⟩, ih⟩

theorem no_cr_contentType {path c : Bytes}
    (h : determineContentType path = some c) : (13 : Byte) ∉ c := by
  have hall : ∀ e ∈ fileExtensions, (13 : Byte) ∉ e.2 := by decide
  obtain ⟨ext, -, hlookup⟩ := Option.bind_eq_some_iff.mp h
  obtain ⟨before, after, hsplit, -⟩ := List.lookup_eq_some_iff.mp hlookup
  refine hall (ext, c) ?_
  rw [hsplit]
  exact List.mem_append_right _ List.mem_cons_self

/-- What the server's surroundings write into heads: `get_time_stamp`, and
tokens without line ends. -/
structure WritesPlain (env : Env) : Prop where
  date : ∀ time, ∃ t, env.date time = getTimeStamp t
  mint : ∀ role, 13 ∉ env.mint role

/-- The server's own fields read back. -/
theorem fieldReads_own {env : Env} (henv : WritesPlain env)
    {name val : Bytes} (h : OwnField env name val) :
    FieldReads name val := by
  cases h with
  | date time =>
      obtain ⟨t, ht⟩ := henv.date time
      exact fieldReads_of_no_cr (by decide) (ht ▸ no_cr_getTimeStamp t)
  | connection => exact fieldReads_of_no_cr (by decide) (by decide)
  | contentType htype =>
      exact fieldReads_of_no_cr (by decide) (no_cr_contentType htype)
  | allow methods =>
      exact fieldReads_of_no_cr (by decide) (no_cr_getMethodsStr methods)
  | cookie role =>
      have hlead : (13 : Byte) ∉ bytes "jwt=" := by decide
      have hend : (13 : Byte)
          ∉ bytes "; HttpOnly; Secure; SameSite=Strict;" := by decide
      refine fieldReads_of_no_cr (by decide) ?_
      simp only [jwtCookie, List.mem_append, not_or]
      exact ⟨⟨hlead, henv.mint role⟩, hend⟩
  | number n hname =>
      have hall : ∀ k ∈ numberNames,
          (13 : Byte) ∉ k ∧ ¬ headerSplitter <:+: k := by decide
      exact fieldReads_of_no_cr (hall _ hname) (no_cr_toStr n)

-- =================================================== what a script writes

/-- A header line between two line ends, cut at its first splitter. -/
theorem fieldReads_line {line : Bytes} {i : Nat}
    (hline : ¬ crlf <:+: line) (hsplit : find headerSplitter line = some i) :
    FieldReads (line.take i) (line.drop (i + headerSplitter.length)) := by
  refine ⟨not_infix_take_of_find (by decide) hsplit, ?_⟩
  rw [fieldText, ← (firstAt_of_find hsplit).split]
  exact hline

/-- What the loop reads are fields that read back. -/
theorem extractHeadersLoop_reads {request : Bytes} {headersEnd : Nat} :
    ∀ (fuel pos : Nat) {m hs : Headers},
      extractHeadersLoop request headersEnd fuel pos m = .ok hs →
      (∀ k v, m.lookup k = some v → FieldReads k v) →
      ∀ k v, hs.lookup k = some v → FieldReads k v := by
  intro fuel
  induction fuel with
  | zero =>
      intro pos m hs h hm
      cases h
      exact hm
  | succ fuel ih =>
      intro pos m hs h hm
      unfold extractHeadersLoop at h
      split at h
      next =>
        cases h
        exact hm
      next =>
        split at h
        next => cases h
        next e hend =>
          dsimp only at h
          split at h
          next =>
            cases h
            exact hm
          next =>
            split at h
            next => cases h
            next i hsplit =>
              refine ih _ h fun k v hlookup => ?_
              obtain ⟨j, hfind, rfl⟩ := Option.map_eq_some_iff.mp hend
              rw [Nat.add_sub_cancel_left] at hsplit hlookup
              have hline : ¬ crlf <:+: substr request pos j :=
                not_infix_take_of_find (by decide) hfind
              have hfield := fieldReads_line hline hsplit
              by_cases hk : k = (substr request pos j).take i
              · subst hk
                rw [AList.lookup_insert] at hlookup
                exact Option.some.inj hlookup ▸ hfield
              · rw [AList.lookup_insert_ne hk] at hlookup
                exact hm k v hlookup

theorem extractHeaders_reads {data : Bytes} {hs : Headers}
    (h : extractHeaders data = .ok hs) :
    ∀ k v, hs.lookup k = some v → FieldReads k v := by
  unfold extractHeaders at h
  split at h
  next => cases h
  next =>
    split at h
    next => cases h
    next =>
      refine extractHeadersLoop_reads _ _ h fun k v hlookup => ?_
      rw [AList.lookup_empty] at hlookup
      cases hlookup

theorem extractHeaderLine_reads (data : Bytes) :
    ¬ crlf <:+: extractHeaderLine data := by
  unfold extractHeaderLine
  split
  next => decide
  next e hfind => exact not_infix_take_of_find (by decide) hfind

/-- All changes of the server respect it. -/
theorem headKind_legible {env : Env} (henv : WritesPlain env) :
    HeadKind env Legible where
  fresh := fun status => ⟨no_crlf (no_cr_getStatusMsg status),
    fun k v h => by
      rw [show (Response.ofStatus status).headers = ∅ from rfl,
        AList.lookup_empty] at h
      cases h⟩
  setStatus := fun h status =>
    ⟨no_crlf (no_cr_getStatusMsg status), h.fields⟩
  addHeader := fun h hown => h.addHeader (fieldReads_own henv hown)
  scriptLine := fun h data => ⟨extractHeaderLine_reads data, h.fields⟩
  setBody := fun h _ => ⟨h.line, h.fields⟩
  scriptHeaders := fun h heq => h.addHeaders (extractHeaders_reads heq)

-- ============================================================ the round trip

/-- The header fields, in the order `build` meets them. -/
def Response.fieldList (r : Response) : List (Bytes × Bytes) :=
  r.headers.entries.map fun e => (e.1, e.2)

theorem Legible.readable {r : Response} (h : Legible r) :
    Readable r.fieldList := by
  intro field hfield
  obtain ⟨e, he, rfl⟩ := List.mem_map.mp hfield
  exact h.fields e.1 e.2 (AList.mem_lookup_iff.mpr he)

/-- The serialised response, as the text of a first line, of header lines
and of a body. -/
theorem serialise_eq (r : Response) :
    r.serialise
      = r.statusMsg ++ (crlf ++ (fieldsText r.fieldList
          ++ (crlf ++ r.body))) := by
  have hfields : ∀ entries : List (Sigma fun _ : Bytes => Bytes),
      entries.flatMap (fun e => Response.headerLine e.1 e.2)
        = fieldsText (entries.map fun e => (e.1, e.2)) := by
    intro entries
    induction entries with
    | nil => rfl
    | cons e rest ih =>
        rw [List.flatMap_cons, ih, List.map_cons, fieldsText, fieldText,
          Response.headerLine]
        simp only [List.append_assoc]
  rw [Response.serialise, hfields, Response.fieldList]
  simp only [List.append_assoc]

/-- The map of a response's header lines is the response's. -/
theorem lookup_headerMap_fieldList (r : Response) (k : Bytes) :
    (headerMap r.fieldList ∅).lookup k = r.headers.lookup k := by
  have hmap : headerMap r.fieldList ∅
      = (({} : Response).addHeaders r.headers).headers := by
    rw [headerMap, Response.fieldList, List.foldl_map]
    rfl
  rw [hmap, Response.lookup_addHeaders]
  exact Option.or_none

/-- A text that reads back as a response: the first line is the status
line, the header lines are the response's headers, and the body begins
at the first blank line. -/
structure ReadsAs (text : Bytes) (r : Response) : Prop where
  line : extractHeaderLine text = r.statusMsg
  headers : ∃ m, extractHeaders text = .ok m
    ∧ ∀ k, m.lookup k = r.headers.lookup k
  body : ∃ headersEnd, find crlfcrlf text = some headersEnd
    ∧ text.drop (headersEnd + crlfcrlf.length) = r.body

theorem Legible.readsAs {r : Response} (h : Legible r) :
    ReadsAs r.serialise r := by
  rw [serialise_eq]
  refine ⟨?_, ⟨_, extractHeaders_text r.body h.line h.readable,
    lookup_headerMap_fieldList r⟩, _,
    find_blank_line r.body h.readable h.line, ?_⟩
  · rw [extractHeaderLine, find_crlf_line _ h.line]
    exact List.take_left
  · have hsplit : r.statusMsg ++ (crlf ++ (fieldsText r.fieldList
          ++ (crlf ++ r.body)))
        = r.statusMsg ++ (crlf ++ (fieldsText r.fieldList ++ crlf))
          ++ r.body := by
      simp only [List.append_assoc]
    rw [hsplit]
    have hblank : crlfcrlf.length = crlf.length + crlf.length := rfl
    refine List.drop_left' ?_
    simp only [List.length_append, hblank]
    omega

/-- Whatever is asked, whatever scripts print and however it fails: every
head of a session reads back as the response it was built from. -/
theorem heads_read_back {env : Env} (henv : WritesPlain env)
    (pipeline : List Component) (router : Router) {r : Response}
    {accepted : Bytes}
    (hhead : .head r accepted ∈ (transact env pipeline router).trace) :
    ReadsAs r.serialise r :=
  ((draft_transact (headKind_legible henv) pipeline router).heads r
    (mem_headsOf.mpr ⟨accepted, hhead⟩)).readsAs

/-- A Sunday in November. -/
def sunday : GmTime := ⟨0, 6, 10, 1994, 8, 49, 37⟩

/-- What a script prints, relayed on that day. -/
def sundayEnv (output : Bytes) : Env :=
  { printsEnv [output] with
    date := fun _ => getTimeStamp sunday
    mint := fun _ => [] }

/-- A script's head reads back as it was relayed, and so does the error
that answers for a script that prints none. -/
theorem heads_read_back_relayed :
    (∃ r : Response, r.statusMsg = bytes "HTTP/1.1 404 Not Found"
        ∧ ReadsAs r.serialise r)
      ∧ ∃ r : Response, r.statusMsg = bytes "HTTP/1.1 502 Bad Gateway"
        ∧ ReadsAs r.serialise r := by
  have hplain : ∀ output, WritesPlain (sundayEnv output) := fun _ =>
    ⟨fun _ => ⟨_, rfl⟩, fun _ => List.not_mem_nil⟩
  have hreads : ∀ output line,
      (headsOf (transact (sundayEnv output) memberServer.pipeline
        memberServer.router).trace).map (·.statusMsg) = [line] →
      ∃ r : Response, r.statusMsg = line ∧ ReadsAs r.serialise r := by
    intro output line hline
    obtain ⟨r, hr, rfl⟩ :=
      List.mem_map.mp (hline ▸ List.mem_singleton.mpr rfl)
    obtain ⟨accepted, hhead⟩ := mem_headsOf.mp hr
    exact ⟨r, rfl, heads_read_back (hplain output) _ _ hhead⟩
  exact ⟨hreads missingHead _ (by decide +kernel),
    hreads (bytes "oops\r\n\r\n") _ (by decide +kernel)⟩

end CgiWebServer
