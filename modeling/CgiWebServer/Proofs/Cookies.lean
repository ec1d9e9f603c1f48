/-
Which heads carry a cookie.

`Bare cookie` is the frame of a stretch that does not bring the cookie
in: if the response before it does not set the cookie, neither does the
response behind it nor any head sent in between. Everything is bare but
the relaying of a chunk that sets the cookie itself, and error pages are
bare whatever the response was, because they begin with a new one
(`answerError_bare`).
-/
import CgiWebServer.Proofs.Frames
import CgiWebServer.Proofs.Writing

namespace CgiWebServer

open Process

/-- A response sets the cookie. -/
def Sets (cookie : Bytes) (r : Response) : Prop :=
  r.headers.lookup setCookie = some cookie

/-- No head among the events sets the cookie. -/
def NoHeadSets (cookie : Bytes) (events : List Event) : Prop :=
  ∀ r accepted, .head r accepted ∈ events → ¬ Sets cookie r

theorem noHeadSets_append {cookie : Bytes} {events events' : List Event}
    (h : NoHeadSets cookie events) (h' : NoHeadSets cookie events') :
    NoHeadSets cookie (events ++ events') := by
  intro r accepted hmem
  cases List.mem_append.mp hmem with
  | inl hin => exact h r accepted hin
  | inr hin => exact h' r accepted hin

/-- The events a stretch adds set the cookie in no head. -/
def AddsNoCookie (cookie : Bytes) (s s' : Txn) : Prop :=
  ∃ events, s'.trace = s.trace ++ events ∧ NoHeadSets cookie events

/-- Without the cookie before, it is without the cookie behind and in
between. -/
def Bare (cookie : Bytes) (s s' : Txn) : Prop :=
  ¬ Sets cookie s.response →
    ¬ Sets cookie s'.response ∧ AddsNoCookie cookie s s'

theorem AddsNoCookie.refl (cookie : Bytes) (s : Txn) :
    AddsNoCookie cookie s s :=
  ⟨[], (List.append_nil _).symm, fun _ _ h => by cases h⟩

theorem AddsNoCookie.trans {cookie : Bytes} {s t u : Txn}
    (h : AddsNoCookie cookie s t) (h' : AddsNoCookie cookie t u) :
    AddsNoCookie cookie s u := by
  obtain ⟨ev, htrace, hall⟩ := h
  obtain ⟨ev', htrace', hall'⟩ := h'
  refine ⟨ev ++ ev', ?_, noHeadSets_append hall hall'⟩
  rw [htrace', htrace, List.append_assoc]

/-- What adds no heads at all adds none with the cookie. -/
theorem AddsNoCookie.of_emits {cookie : Bytes} {P : Event → Prop}
    (hP : ∀ r accepted, ¬ P (.head r accepted)) {s s' : Txn}
    (h : Emits P s s') : AddsNoCookie cookie s s' := by
  obtain ⟨-, -, events, htrace, hall⟩ := h
  exact ⟨events, htrace, fun r accepted hmem =>
    absurd (hall _ hmem) (hP r accepted)⟩

section Rules

variable {cookie : Bytes}

theorem bare_refl (s : Txn) : Bare cookie s s :=
  fun h => ⟨h, .refl cookie s⟩

theorem bare_trans (s t u : Txn) (h : Bare cookie s t)
    (h' : Bare cookie t u) : Bare cookie s u := by
  intro hs
  obtain ⟨ht, hst⟩ := h hs
  obtain ⟨hu, htu⟩ := h' ht
  exact ⟨hu, hst.trans htu⟩

/-- A stretch that does not bring the cookie in. -/
abbrev IsBare {α : Type} (cookie : Bytes) (a : Act α) : Prop :=
  Proc.Within (Bare cookie) (fun _ => True) a

theorem bare_bind {α β : Type} {a : Act α} {f : α → Act β}
    (ha : IsBare cookie a) (hf : ∀ x, IsBare cookie (f x)) :
    IsBare cookie (a >>= f) :=
  Proc.within_bind bare_trans ha hf

theorem bare_pure {α : Type} (x : α) :
    IsBare cookie (pure x : Act α) := Proc.within_pure bare_refl x

theorem bare_get : IsBare cookie (Proc.get : Act Txn) :=
  Proc.within_get bare_refl

theorem bare_raise {α : Type} (stop : Stop) :
    IsBare cookie (Proc.raise stop : Act α) :=
  Proc.within_raise bare_refl True.intro

theorem bare_lift {α : Type} (r : Except Exn α) :
    IsBare cookie (lift r) :=
  Proc.within_ofExcept bare_refl fun _ _ => True.intro

theorem bare_modifyResponse {f : Response → Response}
    (hf : ∀ r, ¬ Sets cookie r → ¬ Sets cookie (f r)) :
    IsBare cookie (modifyResponse f) :=
  Proc.within_modify fun s hs => ⟨hf s.response hs, .refl cookie _⟩

/-- Another header does not set the cookie. -/
theorem not_sets_addHeader {r : Response} {key val : Bytes}
    (hkey : key ≠ setCookie) (h : ¬ Sets cookie r) :
    ¬ Sets cookie (r.addHeader key val) := by
  intro hsets
  exact h ((AList.lookup_insert_ne (Ne.symm hkey)).symm.trans hsets)

theorem bare_record {e : Event} (he : ∀ r accepted, e ≠ .head r accepted) :
    IsBare cookie (record e) :=
  Proc.within_modify fun _ hs => ⟨hs, [e], rfl, fun r accepted hmem =>
    absurd (List.mem_singleton.mp hmem).symm (he r accepted)⟩

-- ================================================================ writes

variable (env : Env)

/-- A head is sent as it was built. -/
theorem bare_afterHead (s : Txn) : Bare cookie s (afterHead env s) := by
  intro hs
  have hbuilt : ¬ Sets cookie (built env s) :=
    not_sets_addHeader (by decide) hs
  refine ⟨hbuilt, [_], rfl, fun r accepted hmem => ?_⟩
  cases List.mem_singleton.mp hmem
  exact hbuilt

theorem bare_sendHead : IsBare cookie (sendHead env) := by
  intro s
  rw [sendHead_apply]
  exact ⟨bare_afterHead env s, fun _ _ => True.intro⟩

theorem bare_streamHead : IsBare cookie (streamHead env) := by
  intro s
  rw [streamHead_apply]
  exact ⟨bare_afterHead env s, fun _ _ => True.intro⟩

theorem bare_openFileStreamer {event : Bytes → Event}
    (he : ∀ p r accepted, event p ≠ .head r accepted) (path : Bytes) :
    IsBare cookie (openFileStreamer env event path) := by
  refine bare_bind bare_get fun _ => ?_
  refine bare_bind (bare_record (he _)) fun _ => ?_
  refine bare_bind (bare_lift _) fun _ => ?_
  exact bare_pure _

theorem bare_streamFile (path : Bytes) (file : File) (fileLen : Nat) :
    IsBare cookie (streamFile env path file fileLen) := by
  refine bare_bind bare_get fun _ => ?_
  refine bare_bind (bare_record fun _ _ h => by cases h) fun _ => ?_
  split
  · exact bare_pure _
  · exact bare_raise _
  · exact bare_raise _

-- =========================================================== error pages

theorem bare_defaultErrorPage : IsBare cookie (defaultErrorPage env) :=
  bare_bind (bare_sendHead env) fun _ => bare_pure _

theorem bare_errorPage (page : Option Bytes) :
    IsBare cookie (errorPage env page) := by
  cases page with
  | none => exact bare_defaultErrorPage env
  | some file =>
      refine Proc.within_recover bare_trans ?_ fun stop h _ hstop => ?_
      · refine bare_bind
          (bare_openFileStreamer env (fun _ _ _ h => by cases h) _)
          fun _ => ?_
        refine bare_bind (bare_modifyResponse fun r hr =>
          not_sets_addHeader (by decide) hr) fun _ => ?_
        refine bare_bind (bare_streamHead env) fun _ => ?_
        exact bare_streamFile env _ _ _
      · cases stop with
        | raised e =>
            cases hstop
            exact bare_defaultErrorPage env
        | pending => cases hstop
        | crash => cases hstop

/-- An exception is answered without the cookie. -/
theorem answerError_bare {e : Exn} (he : Thrown e) (s : Txn) :
    AddsNoCookie cookie s (answerError env e s).2 := by
  have hnew : ¬ Sets cookie (errorResponse e) := by
    intro hsets
    exact thrown_no_cookie he
      (AList.lookup_isSome.mp (by rw [hsets]; rfl))
  exact ((bare_errorPage env _ { s with response := errorResponse e }).1
    hnew).2

-- =============================================================== scripts

/-- A chunk that does not print the cookie is relayed without it. -/
theorem bare_relayChunk {data : Bytes}
    (h : ∀ body headers, relayParse data = .ok (body, headers) →
      headers.lookup setCookie ≠ some cookie) :
    IsBare cookie (relayChunk env true data) := by
  unfold relayChunk
  refine bare_bind (bare_modifyResponse fun r hr => hr) fun _ => ?_
  split
  · exact bare_raise _
  next hstatus =>
    refine Proc.within_ofExcept_bind bare_refl (fun _ _ => True.intro)
      fun body hbody => ?_
    refine bare_bind (bare_modifyResponse fun r hr => hr) fun _ => ?_
    refine Proc.within_ofExcept_bind bare_refl (fun _ _ => True.intro)
      fun headers hheaders => ?_
    have hparse : relayParse data = .ok (body, headers) := by
      unfold relayParse
      rw [if_neg hstatus, hbody, hheaders]
      rfl
    refine bare_bind (bare_modifyResponse fun r hr => ?_)
      fun _ => bare_streamHead env
    refine not_sets_addHeader (by decide) fun hsets => ?_
    unfold Sets at hsets
    rw [Response.lookup_addHeaders] at hsets
    cases hown : headers.lookup setCookie with
    | none =>
        rw [hown, Option.none_or] at hsets
        exact hr hsets
    | some v =>
        rw [hown, Option.some_or] at hsets
        exact h body headers hparse (hown.trans hsets)

/-- A chunk that parses, with its headers. -/
def Relayable (data : Bytes) (headers : Headers) : Prop :=
  ∃ body, relayParse data = .ok (body, headers)

/-- A script prints the cookie itself: a chunk that is relayed, behind
chunks that are relayed, sets it. -/
def Prints (cookie : Bytes) (reads : List ScriptRead) : Prop :=
  ∃ (earlier : List Bytes) (data : Bytes) (rest : List ScriptRead)
    (headers : Headers),
    reads = earlier.map .chunk ++ .chunk data :: rest
      ∧ (∀ d ∈ earlier, ∃ h, Relayable d h) ∧ Relayable data headers
      ∧ headers.lookup setCookie = some cookie

/-- What prints the cookie behind a chunk that is relayed prints it. -/
theorem Prints.cons {data : Bytes} {headers : Headers}
    {reads : List ScriptRead} (hdata : Relayable data headers)
    (h : Prints cookie reads) : Prints cookie (.chunk data :: reads) := by
  obtain ⟨earlier, d, rest, hs, rfl, hearlier, hd, hset⟩ := h
  refine ⟨data :: earlier, d, rest, hs, rfl, ?_, hd, hset⟩
  intro d' hd'
  rcases List.mem_cons.mp hd' with rfl | hd'
  · exact ⟨headers, hdata⟩
  · exact hearlier d' hd'

/-- A script that does not print the cookie is relayed without it. -/
theorem bare_scriptLoop (script : Bytes) {reads : List ScriptRead}
    (h : ¬ Prints cookie reads) :
    IsBare cookie
      (scriptLoop env script (some (relayChunk env true)) reads) := by
  induction reads with
  | nil => exact bare_raise _
  | cons read rest ih =>
      cases read with
      | eof => exact bare_pure _
      | error => exact bare_raise _
      | chunk data =>
          have hfirst : IsBare cookie (relayChunk env true data) := by
            refine bare_relayChunk env fun body headers hparse hset => h ?_
            exact ⟨[], data, rest, headers, rfl, by simp,
              ⟨body, hparse⟩, hset⟩
          cases hparse : relayParse data with
          | error e =>
              -- The chunk throws, and the rest is not read.
              intro s
              obtain ⟨r, hrun⟩ := relayChunk_of_error env hparse s
              have hstep := hfirst s
              rw [hrun] at hstep
              rw [scriptLoop_chunk, Proc.bind_of_error hrun]
              exact ⟨hstep.1, fun _ _ => True.intro⟩
          | ok parsed =>
              obtain ⟨body, headers⟩ := parsed
              exact bare_bind hfirst fun _ =>
                ih fun hrest => h (hrest.cons ⟨body, hparse⟩)

end Rules

end CgiWebServer
