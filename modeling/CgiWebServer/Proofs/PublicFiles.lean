/-
Where the files of default endpoints lie.

# The path

A lookup of an endpoint nobody configured answers with an entry whose
file is `"public" + endpoint`, the endpoint being the target up to its
`?`. Nothing looks at the segments of that path. Which file it names is
decided by the operating system, relative to the web root the server has
changed into; `resolvePath` is the lexical part of that.

# When it stays

The first segment of the path is `public` with the endpoint's first
segment behind it, and the endpoint's other segments are resolved from
there. So the file lies inside `public` exactly if the endpoint is empty
or begins with `/` and never climbs, or if it climbs and the names it
then goes down lead back into `public` (`default_file_inside_iff`).
-/
import CgiWebServer.Lib.LexPath
import CgiWebServer.Proofs.Authorization

namespace CgiWebServer

open LexPath

-- ================================================================ paths

/-- What a segment of a path means. -/
def segmentKind (s : Bytes) : Kind :=
  if s = [] ∨ s = bytes "." then .stay
  else if s = bytes ".." then .up
  else .name

/-- The names a path leads through, resolved lexically by a process whose
working directory is `root`. -/
def resolvePath (root : List Bytes) (path : Bytes) : List Bytes :=
  resolve segmentKind (if path.head? = some 47 then [] else root)
    (segments 47 path)

/-- The path leads into the directory `public` of the web root. -/
def InsidePublic (root : List Bytes) (path : Bytes) : Prop :=
  root ++ [publicDir] <+: resolvePath root path

instance (root : List Bytes) (path : Bytes) :
    Decidable (InsidePublic root path) :=
  inferInstanceAs (Decidable (_ <+: _))

/-- An endpoint that does not lead out of `public`: it is empty or begins
with `/`, and its segments never climb; or they climb, and the names they
leave go back down into `public`. -/
def StaysPublic (root : List Bytes) (endpoint : Bytes) : Prop :=
  let segs := segments 47 (cStr endpoint)
  let climb := climbs segmentKind segs.tail
  (climb = 0 ∧ segs.head? = some [])
    ∨ (climb ≠ 0 ∧ root.drop (root.length + 1 - climb) ++ [publicDir]
        <+: names segmentKind segs.tail)

instance (root : List Bytes) (endpoint : Bytes) :
    Decidable (StaysPublic root endpoint) :=
  inferInstanceAs (Decidable (_ ∨ _))

example : StaysPublic [bytes "srv"] (bytes "/css/./..//app.css") := by
  decide

example : StaysPublic [bytes "srv"] (bytes "/../public/app.css") := by
  decide

/-- A segment that begins with `public` is a name. -/
theorem segmentKind_public (s : Bytes) :
    segmentKind (publicDir ++ s) = .name := by
  have hstay : ¬ (publicDir ++ s = [] ∨ publicDir ++ s = bytes ".") := by
    intro h
    rcases h with h | h
    · cases h
    · cases h
  have hup : publicDir ++ s ≠ bytes ".." := by
    intro h
    cases h
  unfold segmentKind
  rw [if_neg hstay, if_neg hup]

/-- The C library sees the whole of `public`. -/
theorem cStr_public (endpoint : Bytes) :
    cStr (publicDir ++ endpoint) = publicDir ++ cStr endpoint :=
  List.takeWhile_append_of_pos (List.all_eq_true.mp (by decide))

/-- Where the file of a default endpoint lies. -/
theorem insidePublic_iff (root : List Bytes) (endpoint : Bytes) :
    InsidePublic root (cStr (publicDir ++ endpoint))
      ↔ StaysPublic root endpoint := by
  unfold InsidePublic StaysPublic resolvePath
  rw [cStr_public]
  cases hsegs : segments 47 (cStr endpoint) with
  | nil => exact absurd hsegs (segments_ne_nil _)
  | cons first rest =>
      have hpath : segments 47 (publicDir ++ cStr endpoint)
          = (publicDir ++ first) :: rest :=
        segments_append (by decide) _ hsegs
      have hrelative : (publicDir ++ cStr endpoint).head? ≠ some 47 := by
        intro h
        cases h
      have hfirst : resolve segmentKind root ((publicDir ++ first) :: rest)
          = resolve segmentKind (root ++ [publicDir ++ first]) rest := by
        unfold resolve
        rw [List.foldl_cons, push, segmentKind_public]
      rw [if_neg hrelative, hpath, hfirst, inside_climb_iff,
        List.append_right_eq_self]
      simp only [List.tail_cons, List.head?_cons, Option.some.injEq]

-- ============================================================== entries

/-- The entries of a default endpoint all have its one file. -/
theorem defaultEndpoint_resource {endpoint : Bytes} {ep : Endpoint}
    {m : Method} {entry : EndpointMethod}
    (hep : Router.defaultEndpoint endpoint = .ok ep)
    (hentry : ep.methods.lookup m = some entry) :
    entry.resource = publicDir ++ endpoint := by
  cases hep
  cases m with
  | get =>
      cases hentry
      rfl
  | head =>
      cases hentry
      rfl
  | post => cases hentry
  | options => cases hentry
  | notAllowed => cases hentry

-- ============================================================= sessions

/-- For every configuration that loads and every sequence of sessions:
the file a request to an endpoint nobody configured opens lies inside
`public` exactly if the endpoint does not lead out of it. -/
theorem default_file_inside_iff {contentPath : Bytes}
    {serverConfig : XMLElement} {errorPages : AList fun _ : Code => Bytes}
    {srv : Server}
    (hload : initializeServer contentPath serverConfig errorPages = .ok srv)
    (envs : List Env) (env : Env) (root : List Bytes) {endpoint path : Bytes}
    (hendpoint : extractEndpoint env.buffer = .ok endpoint)
    (hnew : endpoint ∉ srv.router.endpoints)
    (hopened : .opened path ∈ ((srv.after envs).serve env).trace) :
    InsidePublic root path ↔ StaysPublic root endpoint := by
  obtain ⟨before, after, hpipeline, hip⟩ := initializeServer_gate hload
  obtain ⟨hsame, hgrown⟩ := grown_after hpipeline envs
  obtain ⟨entry, hrouted, hurl, hpath⟩ :=
    serve_opened env (hsame.trans hpipeline) hopened
  obtain rfl : _ = endpoint :=
    Except.ok.inj (hurl.symm.trans hendpoint)
  obtain ⟨ep, hep, hentry⟩ := hrouted.endpoint_entry
  have hall := hgrown.trans (grown_serve env (hsame.trans hpipeline))
  rcases hall.fresh _ ep hep with hold | hdefault
  · exact absurd (AList.lookup_isSome.mp (by rw [hold]; rfl)) hnew
  · rw [hpath, defaultEndpoint_resource hdefault hentry]
    exact insidePublic_iff root _

/-- A client that asks for one target, on a machine where every file
exists and every write succeeds. -/
def clientOf (requestLine : String) : Env where
  readData := bytes requestLine ++ bytes "\r\nHost: localhost\r\n\r\n"
  fileExists := fun _ => true
  file := fun _ _ => { opens := true, fileLen := 1 }
  socket := fun _ _ => [⟨.ok, 0⟩]
  globalLimit := { exchanges := [⟨true, 0⟩, ⟨false, 1⟩] }

/-- Whether an event opens a path for a handler. -/
def Event.opens (path : Bytes) : Event → Bool
  | .opened p => p == path
  | _ => false

theorem opened_of_any_opens {path : Bytes} {trace : List Event}
    (h : trace.any (·.opens path) = true) : .opened path ∈ trace := by
  obtain ⟨e, he, hopens⟩ := List.any_eq_true.mp h
  cases e with
  | opened p =>
      obtain rfl := eq_of_beq hopens
      exact he
  | _ => cases hopens

/-- The server of an empty configuration serves what is under
`public`. -/
theorem default_file_inside_css :
    InsidePublic [bytes "srv"] (bytes "public/css/../app.css") := by
  have hopened : .opened (bytes "public/css/../app.css")
      ∈ ((emptyServer.after []).serve
          (clientOf "GET /css/../app.css HTTP/1.1")).trace :=
    opened_of_any_opens (by decide +kernel)
  exact (default_file_inside_iff initializeServer_empty [] _ [bytes "srv"]
    rfl (by decide) hopened).mpr (by decide)

/-- It also serves what is next to it. -/
theorem default_file_outside :
    ¬ ∀ (contentPath : Bytes) (serverConfig : XMLElement)
      (errorPages : AList fun _ : Code => Bytes) (srv : Server),
      initializeServer contentPath serverConfig errorPages = .ok srv →
      ∀ (env : Env) (root : List Bytes) (endpoint path : Bytes),
        extractEndpoint env.buffer = .ok endpoint →
        endpoint ∉ srv.router.endpoints →
        .opened path ∈ (srv.serve env).trace → InsidePublic root path := by
  intro hclaim
  have hinside := hclaim [] (.mk [] [] []) ∅ emptyServer
    initializeServer_empty (clientOf "GET /../scripts/notes.txt HTTP/1.1")
    [bytes "srv"] (bytes "/../scripts/notes.txt")
    (bytes "public/../scripts/notes.txt") rfl (by decide)
    (opened_of_any_opens (by decide +kernel))
  exact absurd hinside (by decide)

end CgiWebServer
