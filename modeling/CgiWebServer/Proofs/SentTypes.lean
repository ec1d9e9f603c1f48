/-
The type a file is sent with, and the file that is opened for it.

# The type

It is that of the extension behind the last dot of the whole path. The
files of the table are told apart by it: every path has one extension,
and no two extensions share a type (`determineContentType_eq_some`,
`extension_unique`).

# The file

It is opened by the path up to its first NUL byte. A request target may
hold one, and nothing refuses it: what stands behind it is an extension
to the one and nothing to the other. So the file opened is of the type
sent exactly if both see the same extension (`sent_type_iff`).
-/
import CgiWebServer.Proofs.HeadGet
import CgiWebServer.Proofs.OneHead
import CgiWebServer.Proofs.PublicFiles

namespace CgiWebServer

open Process

-- =========================================================== extensions

/-- A path is listed under a content type. -/
def ListedAs (path ct : Bytes) : Prop :=
  ∃ e ∈ fileExtensions, e.2 = ct ∧ e.1 <:+ path

instance (path ct : Bytes) : Decidable (ListedAs path ct) :=
  inferInstanceAs (Decidable (∃ e ∈ fileExtensions, e.2 = ct ∧ e.1 <:+ path))

/-- The last dot of a path starts its extension. -/
theorem extensionOf_of_dot {name : Bytes} (hname : 46 ∉ name)
    (front : Bytes) : extensionOf (front ++ 46 :: name) = some (46 :: name) := by
  have hmem : (46 : Byte) ∈ front ++ 46 :: name :=
    List.mem_append_right _ List.mem_cons_self
  have hnames : ∀ b ∈ name.reverse, (decide (b ≠ 46)) = true := by
    intro b hb
    rw [decide_eq_true_iff]
    rintro rfl
    exact hname (List.mem_reverse.mp hb)
  have htake : (front ++ 46 :: name).reverse.takeWhile (· ≠ 46)
      = name.reverse := by
    rw [List.reverse_append, List.reverse_cons, List.append_assoc,
      List.singleton_append, List.takeWhile_append_of_pos hnames,
      List.takeWhile_cons_of_neg (by decide), List.append_nil]
  rw [extensionOf, if_pos hmem, htake, List.reverse_reverse]

/-- A path with a dot ends in its last one and what stands behind it. -/
theorem last_dot {path : Bytes} (h : 46 ∈ path) :
    ∃ front name, path = front ++ 46 :: name ∧ 46 ∉ name := by
  obtain ⟨back, rest, hsplit, hback⟩ :=
    List.eq_append_cons_of_mem (List.mem_reverse.mpr h)
  refine ⟨rest.reverse, back.reverse, ?_, fun hmem =>
    hback (List.mem_reverse.mp hmem)⟩
  rw [← List.reverse_reverse path, hsplit, List.reverse_append,
    List.reverse_cons, List.append_assoc, List.singleton_append]

theorem extensionOf_of_noDot {path : Bytes} (h : 46 ∉ path) :
    extensionOf path = none := if_neg h

/-- A path ends in its extension. -/
theorem extensionOf_suffix {path ext : Bytes}
    (h : extensionOf path = some ext) : ext <:+ path := by
  by_cases hdot : (46 : Byte) ∈ path
  · obtain ⟨front, name, rfl, hname⟩ := last_dot hdot
    rw [extensionOf_of_dot hname] at h
    rw [← Option.some.inj h]
    exact List.suffix_append _ _
  · rw [extensionOf_of_noDot hdot] at h
    cases h

/-- What stands in front of the last dot does not matter. -/
theorem extensionOf_append {front : Bytes} (hfront : 46 ∉ front)
    (path : Bytes) : extensionOf (front ++ path) = extensionOf path := by
  by_cases hdot : (46 : Byte) ∈ path
  · obtain ⟨before, name, rfl, hname⟩ := last_dot hdot
    rw [extensionOf_of_dot hname, ← List.append_assoc,
      extensionOf_of_dot hname]
  · have hnone : (46 : Byte) ∉ front ++ path := by
      rw [List.mem_append, not_or]
      exact ⟨hfront, hdot⟩
    rw [extensionOf_of_noDot hdot, extensionOf_of_noDot hnone]

/-- The table's extensions are extensions, each listed once. -/
theorem listed_extension {ext ct : Bytes} (h : (ext, ct) ∈ fileExtensions) :
    fileExtensions.lookup ext = some ct
      ∧ ∃ name, ext = 46 :: name ∧ 46 ∉ name := by
  have hall : ∀ e ∈ fileExtensions, fileExtensions.lookup e.1 = some e.2
      ∧ e.1.head? = some 46 ∧ 46 ∉ e.1.tail := by decide
  obtain ⟨hlookup, hhead, htail⟩ := hall _ h
  cases ext with
  | nil => cases hhead
  | cons b name =>
      obtain rfl := Option.some.inj hhead
      exact ⟨hlookup, name, rfl, htail⟩

/-- No two extensions share a type. -/
theorem extension_unique {ext ext' ct : Bytes}
    (h : (ext, ct) ∈ fileExtensions) (h' : (ext', ct) ∈ fileExtensions) :
    ext = ext' := by
  have hall : ∀ e ∈ fileExtensions, ∀ e' ∈ fileExtensions,
      e.2 = e'.2 → e.1 = e'.1 := by decide
  exact hall _ h _ h' rfl

theorem mem_of_lookup {ext ct : Bytes}
    (h : fileExtensions.lookup ext = some ct) :
    (ext, ct) ∈ fileExtensions := by
  obtain ⟨before, after, hsplit, -⟩ := List.lookup_eq_some_iff.mp h
  rw [hsplit]
  exact List.mem_append_right _ List.mem_cons_self

/-- A path has a type if it ends in a listed extension. -/
theorem determineContentType_eq_some {path ct : Bytes} :
    determineContentType path = some ct ↔ ListedAs path ct := by
  constructor
  · intro h
    obtain ⟨ext, hext, hlookup⟩ := Option.bind_eq_some_iff.mp h
    exact ⟨(ext, ct), mem_of_lookup hlookup, rfl, extensionOf_suffix hext⟩
  · intro h
    obtain ⟨⟨ext, ct⟩, hlisted, rfl, front, rfl⟩ := h
    obtain ⟨hlookup, name, rfl, hname⟩ := listed_extension hlisted
    rw [determineContentType, extensionOf_of_dot hname, Option.bind_some,
      hlookup]

/-- A path of a type, cut at its first NUL byte, is of this type exactly
if it still has its extension. -/
theorem cut_listed_iff {path ct : Bytes}
    (h : determineContentType path = some ct) :
    ListedAs (cStr path) ct
      ↔ extensionOf (cStr path) = extensionOf path := by
  rw [← determineContentType_eq_some]
  constructor
  · intro hcut
    obtain ⟨ext, hext, hlookup⟩ := Option.bind_eq_some_iff.mp h
    obtain ⟨ext', hext', hlookup'⟩ := Option.bind_eq_some_iff.mp hcut
    obtain rfl := extension_unique (mem_of_lookup hlookup)
      (mem_of_lookup hlookup')
    rw [hext, hext']
  · intro hsame
    rw [determineContentType, hsame]
    exact h

/-- The two see the extension of the target. -/
theorem publicDir_extension_iff (endpoint : Bytes) :
    extensionOf (cStr (publicDir ++ endpoint))
        = extensionOf (publicDir ++ endpoint)
      ↔ extensionOf (cStr endpoint) = extensionOf endpoint := by
  have hdot : (46 : Byte) ∉ publicDir := by decide
  rw [cStr_public, extensionOf_append hdot, extensionOf_append hdot]

-- ============================================================ the handlers

variable (env : Env)

/-- No head has been sent and no file opened. -/
def Untouched (s : Txn) : Prop :=
  NoHeads s.trace ∧ ∀ p, .opened p ∉ s.trace

/-- The head of a transaction that has sent no other. -/
theorem built_of_afterHead {s : Txn} (hnone : NoHeads s.trace)
    {r : Response} {accepted : Bytes}
    (hsent : .head r accepted ∈ (afterHead env s).trace) :
    r = built env s := by
  rcases List.mem_append.mp hsent with hold | hhead
  · exact absurd hold (hnone r accepted)
  · cases List.mem_singleton.mp hhead
    rfl

/-- It stays the only one if nothing behind it sends another. -/
theorem built_of_streamHead {rest : Unit → Act Unit}
    (hrest : ∀ x, Only (fun e => ∀ r accepted, e ≠ .head r accepted) (rest x))
    {s : Txn} (hnone : NoHeads s.trace) {r : Response} {accepted : Bytes}
    (hsent : .head r accepted ∈ ((streamHead env >>= rest) s).2.trace) :
    r = built env s := by
  have hhead := streamHead_apply env s
  cases hend : writeEndOf (headRun env s).result with
  | error stop =>
      rw [hend] at hhead
      rw [Proc.bind_of_error hhead] at hsent
      exact built_of_afterHead env hnone hsent
  | ok u =>
      rw [hend] at hhead
      rw [Proc.bind_of_ok hhead] at hsent
      obtain ⟨-, -, events, htrace, hothers⟩ := (hrest u (afterHead env s)).1
      rw [htrace] at hsent
      rcases List.mem_append.mp hsent with hin | hin
      · exact built_of_afterHead env hnone hin
      · exact absurd rfl (hothers _ hin r accepted)

/-- The type a response was given before it was built. -/
theorem contentType_built {s : Txn} {c : Bytes}
    (h : s.response.headers.lookup (bytes "Content-Type") = some c) :
    (built env s).headers.lookup (bytes "Content-Type") = some c := by
  rw [built, Response.build, Response.addHeader_headers,
    AList.lookup_insert_ne (by decide), h]

theorem contentType_fileResponse (c : Bytes) (r : Response) :
    (fileResponse c r).headers.lookup (bytes "Content-Type") = some c :=
  AList.lookup_insert _

theorem contentType_headResponse (c : Bytes) (fileLen : Int)
    (r : Response) :
    (headResponse c fileLen r).headers.lookup (bytes "Content-Type")
      = some c := by
  rw [headResponse, Response.addHeader_headers,
    AList.lookup_insert_ne (by decide), contentType_fileResponse]

section Handlers

variable {s : Txn} {entry : EndpointMethod}
  (hrouted : Routed s.request s.router entry) (hclean : Untouched s)
include hclean

/-- A script's output is relayed without opening a file. -/
theorem relay_opens_none {script p : Bytes} :
    .opened p ∉ (relayScript env script s).2.trace := by
  intro hopened
  have honly : Only (fun e => ∀ p, e ≠ .opened p) (relayScript env script) :=
    only_bind only_get fun _ =>
      only_streamScript env (fun _ _ _ h => by cases h)
        (fun _ h => by cases h) true
  obtain ⟨-, -, events, htrace, hothers⟩ := (honly s).1
  rw [htrace] at hopened
  rcases List.mem_append.mp hopened with hin | hin
  · exact hclean.2 p hin
  · exact hothers _ hin p rfl

/-- The head of GET has the file's type. -/
theorem get_head_type {r : Response} {accepted ct : Bytes}
    (hsent : .head r accepted
      ∈ (GetHandler.handleFile env entry s).2.trace)
    (htype : r.headers.lookup (bytes "Content-Type") = some ct) :
    determineContentType entry.resource = some ct := by
  cases hlisted : determineContentType entry.resource with
  | none =>
      have hsame : (GetHandler.handleFile env entry s).2 = s := by
        unfold GetHandler.handleFile
        simp only [Proc.bind_apply, Proc.get_apply, hlisted]
        rfl
      rw [hsame] at hsent
      exact absurd hsent (hclean.1 r accepted)
  | some c =>
      have hrest : ∀ x : Unit,
          Only (fun e => ∀ r accepted, e ≠ .head r accepted)
            (sendFile env entry.resource) := fun _ =>
        only_bind (only_openFileStreamer env fun _ _ h => by cases h)
          fun _ => only_bind (only_modifyResponse _) fun _ =>
            only_streamFile env (fun _ _ _ h => by cases h) _ _ _
      rw [handleFile_of_type env hlisted] at hsent
      obtain rfl := built_of_streamHead env hrest
        (s := withResponse (fileResponse c s.response) s) hclean.1 hsent
      exact (contentType_built env
        (contentType_fileResponse c s.response)).symm.trans htype

include hrouted

/-- So has that of HEAD. -/
theorem head_head_type {r : Response} {accepted ct : Bytes}
    (hsent : .head r accepted
      ∈ ((HeadHandler.buildResponse env entry >>= fun _ => streamHead env)
          s).2.trace)
    (htype : r.headers.lookup (bytes "Content-Type") = some ct) :
    determineContentType entry.resource = some ct := by
  have hclean' : NoHeads (emit (.opened (cStr entry.resource)) s).trace := by
    intro r accepted hmem
    rcases List.mem_append.mp hmem with hin | hin
    · exact hclean.1 r accepted hin
    · cases List.mem_singleton.mp hin
  have hrun := buildResponse_routed env hrouted
  split at hrun
  · rw [Proc.bind_of_error hrun] at hsent
    exact absurd hsent (hclean' r accepted)
  · cases hlisted : determineContentType entry.resource with
    | none =>
        simp only [hlisted] at hrun
        rw [Proc.bind_of_error hrun] at hsent
        exact absurd hsent (hclean' r accepted)
    | some c =>
        simp only [hlisted] at hrun
        rw [Proc.bind_of_ok hrun, streamHead_apply] at hsent
        obtain rfl := built_of_afterHead env
          (s := withResponse (headResponse c
              (env.file s.time (cStr entry.resource)).fileLen s.response)
            (emit (.opened (cStr entry.resource)) s)) hclean' hsent
        exact (contentType_built env
          (contentType_headResponse c _ s.response)).symm.trans htype

/-- A handler that sends a head and opens a file serves an entry without
a script, opens its resource and sends its type. -/
theorem run_sends_type {kind : HandlerKind} {r : Response}
    {accepted p ct : Bytes}
    (hsent : .head r accepted ∈ (kind.run env s).2.trace)
    (hopened : .opened p ∈ (kind.run env s).2.trace)
    (htype : r.headers.lookup (bytes "Content-Type") = some ct) :
    entry.hasScript = false ∧ p = cStr entry.resource
      ∧ determineContentType entry.resource = some ct := by
  have hpath : p = cStr entry.resource := by
    obtain ⟨-, -, events, htrace, hall⟩ := (only_run env kind hrouted).1
    rw [htrace] at hopened
    rcases List.mem_append.mp hopened with hin | hin
    · exact absurd hin (hclean.2 p)
    · exact hall _ hin
  -- Only GET without a script and HEAD open anything.
  cases kind with
  | get =>
      rw [show HandlerKind.get.run env s = _
        from getHandler_routed env hrouted] at hsent hopened
      cases hscript : entry.hasScript with
      | true =>
          rw [hscript, if_pos rfl] at hopened
          exact absurd hopened (relay_opens_none env hclean)
      | false =>
          rw [hscript, if_neg (by decide)] at hsent
          exact ⟨rfl, hpath, get_head_type env hclean hsent htype⟩
  | post =>
      rw [show HandlerKind.post.run env s = _
        from postHandler_routed env hrouted] at hopened
      cases hscript : entry.hasScript with
      | true =>
          rw [hscript, if_pos rfl] at hopened
          exact absurd hopened (relay_opens_none env hclean)
      | false =>
          rw [hscript, if_neg (by decide)] at hopened
          exact absurd hopened (hclean.2 p)
  | head =>
      rw [show HandlerKind.head.run env s = _
        from headHandler_routed env hrouted] at hsent hopened
      cases hscript : entry.hasScript with
      | true =>
          rw [hscript, if_pos rfl] at hopened
          exact absurd hopened (hclean.2 p)
      | false =>
          rw [hscript, if_neg (by decide)] at hsent
          exact ⟨rfl, hpath, head_head_type env hrouted hclean hsent htype⟩
  | options =>
      obtain ⟨ep, hrun⟩ := optionsHandler_routed env hrouted
      rw [show HandlerKind.options.run env s = _ from hrun] at hopened
      rcases List.mem_append.mp hopened with hin | hin
      · exact absurd hin (hclean.2 p)
      · cases List.mem_singleton.mp hin

end Handlers

-- ============================================================= sessions

variable {contentPath : Bytes} {serverConfig : XMLElement}
  {errorPages : AList fun _ : Code => Bytes} {srv : Server}

/-- An entry the server starts with and that has a file of a type is one
of the root's. -/
theorem root_of_listed
    (hload : initializeServer contentPath serverConfig errorPages = .ok srv)
    {p : RoutePtr} {entry : EndpointMethod}
    (hentry : srv.router.derefRoute p = some entry)
    (hscript : entry.hasScript = false) {ct : Bytes}
    (htype : determineContentType entry.resource = some ct) :
    RootEntry p entry := by
  rw [derefRoute_initializeServer hload] at hentry
  cases hlast : Loads.lastWrite (routeWrite contentPath p)
      (routeElements serverConfig) with
  | none =>
      rw [hlast, Option.none_or] at hentry
      exact derefRoute_initial hentry
  | some last =>
      rw [hlast, Option.some_or] at hentry
      obtain rfl := Option.some.inj hentry
      obtain ⟨before, route, after, -, -, hwrite, -⟩ :=
        lastWrite_route_iff.mp hlast
      -- A configured entry without a script has no resource at all.
      obtain ⟨kind, -, rfl⟩ := loadedEntry_ok hwrite
      have hempty : (!(routeMethod contentPath route).resource.isEmpty)
          = false := hscript
      have hnil : (routeMethod contentPath route).resource = [] := by
        simpa using hempty
      have hnone : determineContentType [] = some ct := hnil ▸ htype
      cases hnone

/-- Behind any sequence of lookups, such an entry has the root's page or
the file of its endpoint. -/
theorem resource_of_listed
    (hload : initializeServer contentPath serverConfig errorPages = .ok srv)
    {r : Router} (hgrown : Grown srv.router r) {p : RoutePtr}
    {entry : EndpointMethod} (hentry : r.derefRoute p = some entry)
    (hscript : entry.hasScript = false) {ct : Bytes}
    (htype : determineContentType entry.resource = some ct) :
    RootEntry p entry ∨ entry.resource = publicDir ++ p.endpoint := by
  obtain ⟨ep, hep, hmethod⟩ := Option.bind_eq_some_iff.mp hentry
  rcases hgrown.fresh _ ep hep with hold | hdefault
  · have hold' : srv.router.derefRoute p = some entry :=
      Option.bind_eq_some_iff.mpr ⟨ep, hold, hmethod⟩
    exact Or.inl (root_of_listed hload hold' hscript htype)
  · exact Or.inr (defaultEndpoint_resource hdefault hmethod)

/-- A handler starts with nothing sent and nothing opened. -/
theorem untouched_begun {s₀ s : Txn} (hquiet : Quiet s₀ s)
    (hempty : s₀.trace = []) (kind : HandlerKind) :
    Untouched (begun kind s) := by
  obtain ⟨-, events, htrace, hminted⟩ := hquiet
  rw [hempty, List.nil_append] at htrace
  have hall : ∀ e ∈ (begun kind s).trace,
      (∃ cookie, e = .minted cookie) ∨ e = .handler kind := by
    intro e he
    rcases List.mem_append.mp he with hin | hin
    · exact Or.inl (hminted e (htrace ▸ hin))
    · exact Or.inr (List.mem_singleton.mp hin)
  constructor
  · intro r accepted hmem
    rcases hall _ hmem with ⟨cookie, hcookie⟩ | hkind
    · cases hcookie
    · cases hkind
  · intro p hmem
    rcases hall _ hmem with ⟨cookie, hcookie⟩ | hkind
    · cases hcookie
    · cases hkind

/-- A content type is among what was sent. -/
def SendsType (trace : List Event) (ct : Bytes) : Prop :=
  ∃ r accepted, .head r accepted ∈ trace
    ∧ r.headers.lookup (bytes "Content-Type") = some ct

/-- For every configuration that loads, every sequence of sessions and
every request target: a file a handler sends the type of is opened by a
path that ends in a listed extension of this type exactly if the
endpoint, cut at its first NUL byte, has still its extension. -/
theorem sent_type_iff
    (hload : initializeServer contentPath serverConfig errorPages = .ok srv)
    (envs : List Env) {s : Txn} {kind : HandlerKind}
    {entry : EndpointMethod}
    (hstarts : Starts env (srv.after envs) s kind entry)
    {endpoint : Bytes} (hendpoint : extractEndpoint env.buffer = .ok endpoint)
    {p c : Bytes}
    (hsent : SendsType (kind.run env (begun kind s)).2.trace c)
    (hopened : .opened p ∈ (kind.run env (begun kind s)).2.trace) :
    ListedAs p c
      ↔ extensionOf (cStr endpoint) = extensionOf endpoint := by
  obtain ⟨before, after, hpipeline, -⟩ := initializeServer_gate hload
  obtain ⟨hsame, hgrown⟩ := grown_after hpipeline envs
  have hpassed := hstarts.passed
  rw [gateRun_eq env (hsame.trans hpipeline)] at hpassed
  have hquiet := (gateQuiet_runPipeline env
    (isGate_gateComponents before after)
    { router := (srv.after envs).router }).1
  rw [hpassed] at hquiet
  obtain ⟨r, accepted, hhead, htype⟩ := hsent
  obtain ⟨hscript, rfl, hlisted⟩ := run_sends_type env
    (s := begun kind s) hstarts.routed (untouched_begun hquiet rfl kind)
    hhead hopened htype
  obtain ⟨entry', haccepted⟩ := gate_ok env hpassed
  obtain rfl := Except.ok.inj
    (haccepted.accepts.endpointUrl.symm.trans hendpoint)
  rw [cut_listed_iff hlisted]
  -- The root's page is fixed; any other listed resource is the target under
  -- public.
  rcases resource_of_listed hload (hgrown.trans hquiet.1)
    hstarts.routed.entry hscript hlisted with hroot | hfile
  · have hurl : s.request.endpointUrl = bytes "/" := hroot.endpoint
    rw [hroot.resource, hurl]
    exact iff_of_true (by decide) (by decide)
  · rw [hfile]
    exact publicDir_extension_iff _

/-- Whether an event sends a content type. -/
def Event.sendsType (ct : Bytes) : Event → Bool
  | .head r _ => r.headers.lookup (bytes "Content-Type") == some ct
  | _ => false

theorem sendsType_of_any {ct : Bytes} {trace : List Event}
    (h : trace.any (·.sendsType ct) = true) : SendsType trace ct := by
  obtain ⟨e, he, hsends⟩ := List.any_eq_true.mp h
  cases e with
  | head r accepted => exact ⟨r, accepted, he, eq_of_beq hsends⟩
  | _ => cases hsends

/-- A gate that has let a request through starts the handler its pointer
leads to. -/
theorem starts_of_passed
    (hload : initializeServer contentPath serverConfig errorPages = .ok srv)
    {s : Txn} {kind : HandlerKind}
    (hpassed : gateRun env srv = (.ok (), s))
    (hkind : (s.request.route.bind s.router.derefRoute).bind (·.handler)
      = some kind) :
    ∃ entry, Starts env srv s kind entry := by
  obtain ⟨before, after, hpipeline, -⟩ := initializeServer_gate hload
  have hrun := hpassed
  rw [gateRun_eq env hpipeline] at hrun
  obtain ⟨entry, haccepted⟩ := gate_ok env hrun
  have hrouted := haccepted.routed
  rw [hrouted.route_entry, Option.bind_some] at hkind
  exact ⟨entry, hpassed, hrouted, hkind⟩

/-- How the empty configuration's gate leaves a request line. -/
def passedLine (requestLine : String) : Txn :=
  (gateRun (clientOf requestLine) emptyServer).2

theorem starts_css : ∃ entry, Starts (clientOf "GET /app.css HTTP/1.1")
    emptyServer (passedLine "GET /app.css HTTP/1.1") .get entry :=
  starts_of_passed _ initializeServer_empty rfl rfl

theorem starts_cut : ∃ entry, Starts (clientOf "GET /notes\x00.html HTTP/1.1")
    emptyServer (passedLine "GET /notes\x00.html HTTP/1.1") .get entry :=
  starts_of_passed _ initializeServer_empty rfl rfl

/-- A stylesheet is sent as one. -/
theorem sent_type_css :
    ListedAs (bytes "public/app.css") (bytes "text/css") := by
  obtain ⟨entry, hstarts⟩ := starts_css
  have hendpoint : extractEndpoint (clientOf "GET /app.css HTTP/1.1").buffer
      = .ok (bytes "/app.css") := rfl
  exact (sent_type_iff _ initializeServer_empty [] hstarts hendpoint
    (p := bytes "public/app.css") (c := bytes "text/css")
    (sendsType_of_any (by decide +kernel))
    (opened_of_any_opens (by decide +kernel))).mpr (by decide)

/-- What stands behind a NUL byte is a type to one reader and nothing to
the other: a file without an extension is sent as a page. -/
theorem notes_sent_as_page :
    ¬ ∀ (contentPath : Bytes) (serverConfig : XMLElement)
      (errorPages : AList fun _ : Code => Bytes) (srv : Server),
      initializeServer contentPath serverConfig errorPages = .ok srv →
      ∀ (env : Env) (s : Txn) (kind : HandlerKind) (entry : EndpointMethod)
        (p c : Bytes), Starts env srv s kind entry →
        SendsType (kind.run env (begun kind s)).2.trace c →
        .opened p ∈ (kind.run env (begun kind s)).2.trace →
        ListedAs p c := by
  intro hclaim
  obtain ⟨entry, hstarts⟩ := starts_cut
  have hlisted := hclaim [] (.mk [] [] []) ∅ emptyServer
    initializeServer_empty _ _ _ entry (bytes "public/notes")
    (bytes "text/html") hstarts (sendsType_of_any (by decide +kernel))
    (opened_of_any_opens (by decide +kernel))
  exact absurd hlisted (by decide)

end CgiWebServer
