/-
Which text decides how a body is validated.

Two readers look for a request's content type. `extract_headers` walks
the header lines and keeps the last one of each name. `get_content_type`
takes the first place in the whole buffer where `Content-Type: ` stands,
be it in the target, at the end of a longer header name, in a value or in
the body. Each then reads what stands behind its place up to the line's
end (`readAt`). So a header line supplies the type exactly where the
first place is the start of one, and the readers agree on it where the
last such line has the same value (`content_type_agrees_iff`).

The header loop is read off the lines it visits (`headerLines`), each
with the position it starts at: the map's entry of a name is the value of
the last line so named (`lookup_of_loop`), and a line named
`Content-Type` is a place at which the other reader would read that
value (`fieldAt_of_named`).
-/
import CgiWebServer.Http.Extract

namespace CgiWebServer

open Scan (find findFrom)

-- ============================================================= one reader

def contentTypeName : Bytes := bytes "Content-Type"

/-- What `extract_header_field` searches for. -/
def contentTypeField : Bytes := contentTypeName ++ headerSplitter

/-- Lower-cased and cut at the first `;`, if that leaves anything. -/
def mediaType (value : Bytes) : Option Bytes :=
  let ct := (value.map toLower).takeWhile (· ≠ 59)
  if ct.isEmpty then none else some ct

/-- What stands behind a field that starts at `start`, up to the next
CRLF. -/
def fieldAt (buffer field : Bytes) (start : Nat) : Option Bytes :=
  match findFrom crlf buffer start with
  | none => none
  | some e =>
      if start + field.length > e then none
      else some (substr buffer (start + field.length)
        (e - (start + field.length)))

/-- The content type read at a place, if there is one. -/
def readAt (buffer : Bytes) (place : Option Nat) : Option Bytes :=
  (place.bind (fieldAt buffer contentTypeField)).bind mediaType

theorem getContentType_eq (buffer : Bytes) :
    getContentType buffer
      = readAt buffer (find contentTypeField buffer) := by
  have hfield : extractHeaderField buffer (bytes "Content-Type")
      = (find contentTypeField buffer).bind
          (fieldAt buffer contentTypeField) := by
    unfold extractHeaderField contentTypeField contentTypeName
    dsimp only
    cases find (bytes "Content-Type" ++ headerSplitter) buffer with
    | none => rfl
    | some start => rfl
  rw [getContentType, hfield, readAt]
  cases (find contentTypeField buffer).bind
      (fieldAt buffer contentTypeField) with
  | none => rfl
  | some ct => rfl

-- =========================================================== the other one

/-- A header line and where it starts. -/
structure HeaderLine where
  pos : Nat
  text : Bytes
  deriving DecidableEq

/-- What the loop of `extract_headers` makes of a line. -/
def HeaderLine.field (l : HeaderLine) : Option (Bytes × Bytes) :=
  (find headerSplitter l.text).map fun i =>
    (l.text.take i, l.text.drop (i + headerSplitter.length))

/-- The lines the loop visits, from position `pos` on. -/
def headerLines (request : Bytes) (headersEnd : Nat) :
    Nat → Nat → List HeaderLine
  | 0, _ => []
  | fuel + 1, pos =>
      if headersEnd ≤ pos then []
      else
        match findFrom crlf request pos with
        | none => []
        | some e =>
            let line := substr request pos (e - pos)
            if line.isEmpty then []
            else ⟨pos, line⟩
              :: headerLines request headersEnd fuel (e + crlf.length)

/-- The header lines of a buffer. -/
def linesOf (buffer : Bytes) : List HeaderLine :=
  match find crlfcrlf buffer with
  | none => []
  | some headersEnd =>
      match findFrom crlf buffer 0 with
      | none => []
      | some endOfRequestLine =>
          headerLines buffer headersEnd buffer.length
            (endOfRequestLine + crlf.length)

/-- The last line of a name, with its value. -/
def lastNamed (name : Bytes) : List HeaderLine → Option (Nat × Bytes)
  | [] => none
  | l :: rest =>
      (lastNamed name rest).or
        (l.field.bind fun f => if f.1 = name then some (l.pos, f.2) else none)

/-- The content type a header map declares. -/
def declaredType (headers : Headers) : Option Bytes :=
  (headers.lookup contentTypeName).bind mediaType

-- =============================================================== the loop

variable {buffer : Bytes}

/-- The map's entry of a name is the last line's of that name. -/
theorem lookup_of_loop {headersEnd : Nat} {H : Headers} (name : Bytes) :
    ∀ (fuel pos : Nat) (headers : Headers),
      extractHeadersLoop buffer headersEnd fuel pos headers = .ok H →
      H.lookup name
        = ((lastNamed name (headerLines buffer headersEnd fuel pos)).map
            (·.2)).or (headers.lookup name) := by
  intro fuel
  induction fuel with
  | zero =>
      intro pos headers h
      cases h
      rfl
  | succ fuel ih =>
      intro pos headers h
      unfold extractHeadersLoop at h
      unfold headerLines
      by_cases hend : headersEnd ≤ pos
      · rw [if_pos hend] at h
        cases h
        rw [if_pos hend]
        rfl
      · rw [if_neg hend] at h
        rw [if_neg hend]
        cases he : findFrom crlf buffer pos with
        | none =>
            rw [he] at h
            cases h
        | some e =>
            simp only [he] at h
            by_cases hnil : (substr buffer pos (e - pos)).isEmpty = true
            · rw [if_pos hnil] at h
              cases h
              simp only [if_pos hnil]
              rfl
            · rw [if_neg hnil] at h
              simp only [if_neg hnil]
              cases hsplit : find headerSplitter
                  (substr buffer pos (e - pos)) with
              | none =>
                  rw [hsplit] at h
                  cases h
              | some i =>
                  simp only [hsplit] at h
                  -- The line's field is in the map before the later lines
                  -- are read, so it is found only where none of these has
                  -- its name.
                  rw [ih _ _ h, lastNamed, HeaderLine.field, hsplit]
                  cases lastNamed name
                      (headerLines buffer headersEnd fuel
                        (e + crlf.length)) with
                  | some found => rfl
                  | none =>
                      by_cases hname :
                          (substr buffer pos (e - pos)).take i = name
                      · subst hname
                        rw [AList.lookup_insert]
                        simp
                      · rw [AList.lookup_insert_ne (Ne.symm hname)]
                        simp [hname]

/-- Where a line stands. -/
theorem line_at {headersEnd : Nat} {l : HeaderLine} :
    ∀ (fuel pos : Nat), l ∈ headerLines buffer headersEnd fuel pos →
      ∃ e, findFrom crlf buffer l.pos = some e
        ∧ l.text = substr buffer l.pos (e - l.pos) := by
  intro fuel
  induction fuel with
  | zero =>
      intro pos hl
      cases hl
  | succ fuel ih =>
      intro pos hl
      unfold headerLines at hl
      by_cases hend : headersEnd ≤ pos
      · rw [if_pos hend] at hl
        cases hl
      · rw [if_neg hend] at hl
        cases he : findFrom crlf buffer pos with
        | none =>
            rw [he] at hl
            cases hl
        | some e =>
            simp only [he] at hl
            split at hl
            · cases hl
            · rcases List.mem_cons.mp hl with rfl | hrest
              · exact ⟨e, he, rfl⟩
              · exact ih _ hrest

/-- A line named `Content-Type` reads as a field at its position. -/
theorem fieldAt_of_named {l : HeaderLine} {e : Nat} {value : Bytes}
    (he : findFrom crlf buffer l.pos = some e)
    (htext : l.text = substr buffer l.pos (e - l.pos))
    (hfield : l.field = some (contentTypeName, value)) :
    fieldAt buffer contentTypeField l.pos = some value := by
  obtain ⟨i, hi, hsplit⟩ := Option.map_eq_some_iff.mp hfield
  obtain ⟨hname, hvalue⟩ := Prod.mk.inj hsplit
  obtain ⟨hle, hpre, -⟩ := Scan.find_eq_some_iff.mp hi
  have hfieldLen : contentTypeField.length = 14 := rfl
  have hlen : i = 12 := by
    have hcount := congrArg List.length hname
    rw [List.length_take, Nat.min_eq_left hle] at hcount
    exact hcount
  have hroom : 14 ≤ l.text.length := by
    have hsplitter := hpre.length_le
    rw [List.length_drop] at hsplitter
    have htwo : headerSplitter.length = 2 := rfl
    omega
  have hline : 14 ≤ e - l.pos := by
    rw [htext, substr, List.length_take] at hroom
    omega
  rw [fieldAt, he]
  show (if l.pos + contentTypeField.length > e then none else _)
    = some value
  rw [hfieldLen, if_neg (by omega), ← hvalue, htext, hlen]
  show some (substr buffer (l.pos + 14) (e - (l.pos + 14)))
    = some ((substr buffer l.pos (e - l.pos)).drop 14)
  rw [substr, substr, List.drop_take, List.drop_drop, Nat.sub_add_eq]

-- ============================================================ no doubt

/-- A header line named `Content-Type`, and its value. -/
structure TypeLine (buffer : Bytes) (l : HeaderLine) (value : Bytes) :
    Prop where
  mem : l ∈ linesOf buffer
  field : l.field = some (contentTypeName, value)

/-- The two readers agree: `get_content_type` supplies the type the map
declares, and none but a header line of the name supplies it. -/
structure ReadersAgree (buffer : Bytes) (H : Headers) : Prop where
  value : getContentType buffer = declaredType H
  source : ∀ ct, getContentType buffer = some ct →
    ∃ l value, TypeLine buffer l value
      ∧ find contentTypeField buffer = some l.pos

/-- A value without a type: it is empty, or starts with a `;`. -/
def Untyped (value : Bytes) : Prop :=
  value = [] ∨ [59] <+: value

/-- What stands behind a field gives it no type: there is no line end, or
it comes at once, or a `;` does. -/
def UntypedBehind (behind : Bytes) : Prop :=
  ¬ crlf <:+: behind ∨ crlf <+: behind ∨ [59] <+: behind

/-- Two values with the same type, in either case and before any `;`. -/
def SameType (value value' : Bytes) : Prop :=
  (value.takeWhile (· ≠ 59)).map toLower
    = (value'.takeWhile (· ≠ 59)).map toLower

/-- The buffer leaves no doubt about its type: its first `Content-Type: `
starts a header line, whose type is that of the last line of the name; or
neither gives a type. -/
inductive TypeSettled (buffer : Bytes) : Prop
  | byLine {l : HeaderLine} {value : Bytes} {last : Nat × Bytes}
      (hline : TypeLine buffer l value)
      (hfirst : find contentTypeField buffer = some l.pos)
      (hlast : lastNamed contentTypeName (linesOf buffer) = some last)
      (hsame : SameType value last.2) : TypeSettled buffer
  | byNone
      (hfirst : ∀ before behind,
        Scan.FirstAt contentTypeField buffer before behind →
          UntypedBehind behind)
      (hlast : ∀ last,
        lastNamed contentTypeName (linesOf buffer) = some last →
          Untyped last.2) : TypeSettled buffer

-- ============================================================= the values

/-- No letter is lower-cased to a `;`. -/
theorem toLower_eq_semicolon (b : Byte) : toLower b = 59 ↔ b = 59 := by
  unfold toLower isUpper
  split
  next hupper =>
    simp only [Bool.and_eq_true, decide_eq_true_eq,
      UInt8.le_iff_toNat_le] at hupper
    simp only [← UInt8.toNat_inj, UInt8.toNat_add]
    have h65 : UInt8.toNat 65 = 65 := rfl
    have h90 : UInt8.toNat 90 = 90 := rfl
    have h32 : UInt8.toNat 32 = 32 := rfl
    have h59 : UInt8.toNat 59 = 59 := rfl
    omega
  next => rfl

/-- So a value may be cut before it is lower-cased. -/
theorem takeWhile_map_toLower (value : Bytes) :
    (value.map toLower).takeWhile (· ≠ 59)
      = (value.takeWhile (· ≠ 59)).map toLower := by
  rw [List.takeWhile_map]
  congr 2
  funext b
  simp [toLower_eq_semicolon]

theorem mediaType_eq (value : Bytes) :
    mediaType value
      = if value.takeWhile (· ≠ 59) = [] then none
        else some ((value.takeWhile (· ≠ 59)).map toLower) := by
  unfold mediaType
  rw [takeWhile_map_toLower]
  simp only [List.isEmpty_iff, List.map_eq_nil_iff]

theorem untyped_iff (value : Bytes) :
    Untyped value ↔ mediaType value = none := by
  rw [mediaType_eq, Untyped]
  cases value with
  | nil => simp
  | cons b rest =>
      by_cases hb : b = 59
      · subst hb
        simp
      · simp [hb, Ne.symm hb]

/-- Two values have the same type, or none, exactly if they read the
same. -/
theorem sameType_iff (value value' : Bytes) :
    SameType value value' ↔ mediaType value = mediaType value' := by
  rw [mediaType_eq, mediaType_eq, SameType]
  by_cases hnil : value.takeWhile (· ≠ 59) = []
  · rw [if_pos hnil, hnil]
    by_cases hnil' : value'.takeWhile (· ≠ 59) = []
    · rw [if_pos hnil', hnil']
      simp
    · rw [if_neg hnil']
      refine iff_of_false (fun h => hnil' ?_) (by simp)
      exact List.map_eq_nil_iff.mp h.symm
  · rw [if_neg hnil]
    by_cases hnil' : value'.takeWhile (· ≠ 59) = []
    · rw [if_pos hnil', hnil']
      refine iff_of_false (fun h => hnil ?_) (by simp)
      exact List.map_eq_nil_iff.mp h
    · rw [if_neg hnil', Option.some.injEq]

-- ============================================================= the places

/-- A field is read up to the first CRLF behind it. -/
theorem fieldAt_first {before behind : Bytes}
    (h : Scan.FirstAt contentTypeField buffer before behind) :
    fieldAt buffer contentTypeField before.length
      = (find crlf behind).map behind.take := by
  have hnone : (13 : Byte) ∉ contentTypeField := by decide
  have hend : findFrom crlf buffer before.length
      = (find crlf behind).map
          (before.length + contentTypeField.length + ·) := by
    rw [findFrom, h.drop, crlf_eq, Scan.find_skip_of_head _ hnone,
      Option.map_map]
    congr 1
    funext e
    simp only [Function.comp_apply, Nat.add_assoc]
  have hbehind := h.drop_behind
  rw [fieldAt, hend]
  cases find crlf behind with
  | none => rfl
  | some e =>
      simp only [Option.map_some]
      rw [if_neg (by omega), substr, hbehind, Nat.add_sub_cancel_left]

/-- The type read at the first place is that of the text behind it up to
the line's end. -/
theorem readAt_first {before behind : Bytes}
    (h : Scan.FirstAt contentTypeField buffer before behind) :
    readAt buffer (find contentTypeField buffer)
      = (find crlf behind).bind fun e => mediaType (behind.take e) := by
  rw [h.find, readAt, Option.bind_some, fieldAt_first h, Option.bind_map]
  rfl

/-- Two first bytes of a text are one. -/
theorem prefix_head_eq {a b : Byte} {p q text : Bytes}
    (h : (a :: p) <+: text) (h' : (b :: q) <+: text) : a = b := by
  obtain ⟨rest, rfl⟩ := h
  exact (List.cons_prefix_cons.mp h').1.symm

/-- There is none where nothing behind it gives one. -/
theorem untypedBehind_iff (behind : Bytes) :
    UntypedBehind behind
      ↔ (find crlf behind).bind (fun e => mediaType (behind.take e))
        = none := by
  unfold UntypedBehind
  cases hend : find crlf behind with
  | none =>
      exact iff_of_true (Or.inl (Scan.find_eq_none_iff.mp hend)) rfl
  | some e =>
      obtain ⟨-, hpre, hfirst⟩ := Scan.find_eq_some_iff.mp hend
      rw [Option.bind_some, ← untyped_iff, Untyped,
        or_iff_right (not_not_intro (Scan.infix_of_find hend))]
      cases e with
      | zero =>
          rw [List.drop_zero] at hpre
          refine or_congr (iff_of_true hpre rfl) (iff_of_false ?_ (by simp))
          intro hsemicolon
          exact absurd (prefix_head_eq hpre hsemicolon) (by decide)
      | succ e =>
          have hno : ¬ crlf <+: behind := hfirst 0 (Nat.succ_pos e)
          cases behind with
          | nil => exact absurd hpre (by rw [List.drop_nil]; decide)
          | cons b rest =>
              refine or_congr (iff_of_false hno (by simp)) ?_
              simp only [List.take_succ_cons, List.cons_prefix_cons,
                List.nil_prefix, and_true]

/-- Where a header line of the buffer stands. -/
theorem linesOf_at {l : HeaderLine} (hl : l ∈ linesOf buffer) :
    ∃ e, findFrom crlf buffer l.pos = some e
      ∧ l.text = substr buffer l.pos (e - l.pos) := by
  unfold linesOf at hl
  split at hl
  next => cases hl
  next =>
    split at hl
    next => cases hl
    next => exact line_at _ _ hl

/-- A line of the name reads as its value. -/
theorem readAt_typeLine {l : HeaderLine} {value : Bytes}
    (h : TypeLine buffer l value) :
    readAt buffer (some l.pos) = mediaType value := by
  obtain ⟨e, he, htext⟩ := linesOf_at h.mem
  rw [readAt, Option.bind_some, fieldAt_of_named he htext h.field]
  rfl

/-- The declared type is that of the last line of the name. -/
theorem declaredType_eq {H : Headers} (h : extractHeaders buffer = .ok H) :
    declaredType H
      = (lastNamed contentTypeName (linesOf buffer)).bind
          fun last => mediaType last.2 := by
  unfold extractHeaders at h
  unfold linesOf
  cases hend : find crlfcrlf buffer with
  | none =>
      rw [hend] at h
      cases h
  | some headersEnd =>
      simp only [hend] at h
      cases hfirst : findFrom crlf buffer 0 with
      | none =>
          rw [hfirst] at h
          cases h
      | some endOfRequestLine =>
          simp only [hfirst] at h
          have hlookup := lookup_of_loop contentTypeName _ _ _ h
          rw [AList.lookup_empty, Option.or_none] at hlookup
          rw [declaredType, hlookup, Option.bind_map]
          rfl

-- ============================================================== agreement

/-- Agreement is that the two read the same, at the start of a line of
the name if they read anything. -/
theorem typeSettled_of_agree {H : Headers}
    (h : extractHeaders buffer = .ok H) (hagree : ReadersAgree buffer H) :
    TypeSettled buffer := by
  have hvalue := hagree.value
  rw [declaredType_eq h] at hvalue
  cases hct : getContentType buffer with
  | some ct =>
      obtain ⟨l, value, hline, hfirst⟩ := hagree.source ct hct
      rw [hct] at hvalue
      obtain ⟨last, hlast, htype⟩ := Option.bind_eq_some_iff.mp hvalue.symm
      refine .byLine hline hfirst hlast ((sameType_iff _ _).mpr ?_)
      rw [htype, ← readAt_typeLine hline, ← hfirst, ← getContentType_eq,
        hct]
  | none =>
      rw [hct] at hvalue
      refine .byNone (fun before behind hbehind => ?_) fun last hlast => ?_
      · rw [untypedBehind_iff, ← readAt_first hbehind, ← getContentType_eq,
          hct]
      · rw [untyped_iff]
        rw [hlast] at hvalue
        exact hvalue.symm

/-- The two readers agree exactly where the buffer leaves no doubt. -/
theorem content_type_agrees_iff {H : Headers}
    (h : extractHeaders buffer = .ok H) :
    ReadersAgree buffer H ↔ TypeSettled buffer := by
  constructor
  · exact typeSettled_of_agree h
  · intro hsettled
    have hdeclared := declaredType_eq h
    cases hsettled with
    | @byLine l value last hline hfirst hlast hsame =>
        have hread : getContentType buffer = mediaType value := by
          rw [getContentType_eq, hfirst, readAt_typeLine hline]
        refine ⟨?_, fun ct _ => ⟨l, value, hline, hfirst⟩⟩
        rw [hread, hdeclared, hlast, Option.bind_some,
          (sameType_iff _ _).mp hsame]
    | byNone hfirst hlast =>
        have hread : getContentType buffer = none := by
          rw [getContentType_eq]
          cases hfind : find contentTypeField buffer with
          | none => rfl
          | some place =>
              have hbehind := Scan.firstAt_of_find hfind
              rw [← hfind, readAt_first hbehind, ← untypedBehind_iff]
              exact hfirst _ _ hbehind
        refine ⟨?_, fun ct hct => ?_⟩
        · rw [hread, hdeclared]
          cases hnamed : lastNamed contentTypeName (linesOf buffer) with
          | none => rfl
          | some last =>
              exact ((untyped_iff last.2).mp (hlast last hnamed)).symm
        · cases hread.symm.trans hct

/-- A JSON body under a header of a longer name, and under its own. -/
def longerName : Bytes :=
  bytes "POST /sum HTTP/1.1\r\nX-Content-Type: text/plain\r\n"
    ++ bytes "Content-Type: application/json\r\n\r\n[1]"

/-- The longer name supplies the content type. -/
theorem content_type_of_longer_name :
    ∃ H, extractHeaders longerName = .ok H
      ∧ getContentType longerName = some (bytes "text/plain")
      ∧ declaredType H = some jsonType
      ∧ ¬ ReadersAgree longerName H :=
  ⟨_, rfl, by decide, by decide,
    fun h => absurd h.value (by decide)⟩

/-- A JSON body under one header of the name, in capitals and with a
parameter. -/
def oneName : Bytes :=
  bytes "POST /sum HTTP/1.1\r\nHost: a\r\n"
    ++ bytes "Content-Type: Application/JSON; a=b\r\n\r\n[1]"

/-- It supplies the content type. -/
theorem content_type_agrees_once :
    ∃ H, extractHeaders oneName = .ok H
      ∧ getContentType oneName = some jsonType
      ∧ ReadersAgree oneName H := by
  have hline : TypeLine oneName
      ⟨29, bytes "Content-Type: Application/JSON; a=b"⟩
      (bytes "Application/JSON; a=b") := ⟨by decide, by decide⟩
  have hlast : lastNamed contentTypeName (linesOf oneName)
      = some (29, bytes "Application/JSON; a=b") := by decide
  have hfirst : find contentTypeField oneName = some 29 := by decide
  exact ⟨_, rfl, by decide, (content_type_agrees_iff rfl).mpr
    (.byLine hline hfirst hlast rfl)⟩

end CgiWebServer
