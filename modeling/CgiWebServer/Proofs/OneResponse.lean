/-
Where no write fails, a session sends one response.

# The assumptions

No write of the connection ends in an error, and a file is read as long as
it was when it was opened (`Env.Smooth`). Sessions that spawn a script are
left out: what its reads become is told where scripts are.

# The shapes

Nothing such a session does is left open then. What it leaves behind its
gate is one of a few rows of events (`SessionShape`), and the client's
bytes are read off the row: the text of one response, of the length it
tells. The one row that is not is GET's. It has sent a head by the time it
opens the file, so a file that cannot be opened is announced first and
refused behind it. `one_response` says so of every session of a server.
-/
import CgiWebServer.Proofs.FileStream
import CgiWebServer.Proofs.HeadGet
import CgiWebServer.Proofs.OneHead
import CgiWebServer.Proofs.PublicFiles
import CgiWebServer.Proofs.ReadBack
import CgiWebServer.Proofs.ScriptCuts

namespace CgiWebServer

open Process

-- =========================================================== assumptions

/-- A file that is sent where it is asked for: it opens, and is not
empty. -/
def File.Sendable (file : File) : Prop :=
  file.opens = true ∧ 0 < file.fileLen

instance (file : File) : Decidable file.Sendable :=
  inferInstanceAs (Decidable (_ ∧ _))

/-- A file that is read as it was opened. -/
structure File.Whole (file : File) : Prop where
  fileLen : file.Sendable → file.fileLen = file.content.length
  reads : .error ∉ file.reads
  ends : file.content.length ≤ file.reads.length

/-- A connection without write errors, on a machine whose files keep
still. -/
structure Env.Smooth (env : Env) (disk : Bytes → File) : Prop where
  writes : ∀ time call, ∃ n answers,
    env.socket time call = ⟨.ok, n⟩ :: answers
  files : ∀ time path, env.file time path = disk path
  whole : ∀ path, (disk path).Whole

theorem openFile_of_sendable {file : File} (hwhole : file.Whole)
    (h : file.Sendable) (path : Bytes) :
    openFile path file = .ok file.content.length := by
  have hlen := hwhole.fileLen h
  obtain ⟨hopens, hpos⟩ := h
  unfold openFile
  rw [if_neg (by simp [hopens]), if_neg (by omega), hlen]
  rfl

theorem openFile_of_not_sendable {file : File} (h : ¬ file.Sendable)
    (path : Bytes) : ∃ e, openFile path file = .error e := by
  unfold openFile
  split
  next => exact ⟨_, rfl⟩
  next hopens =>
    split
    next => exact ⟨_, rfl⟩
    next hlen =>
      exact absurd ⟨Bool.of_not_eq_false hopens, by omega⟩ h

/-- HEAD goes by the same two conditions. -/
theorem not_sendable_iff {file : File} :
    ¬ file.Sendable ↔ file.opens = false ∨ file.fileLen ≤ 0 := by
  unfold File.Sendable
  rw [not_and_or, Bool.not_eq_true, Int.not_lt]

/-- The loop over a whole file, from where `bytes_sent` is what has been
read. -/
theorem fileStreamLoop_whole {path : Bytes} {file : File}
    {socket : Nat → List WriteAnswer}
    (hwrites : ∀ call, ∃ n answers, socket call = ⟨.ok, n⟩ :: answers) :
    ∀ (reads : List ReadAnswer) (offset call : Nat), .error ∉ reads →
      offset ≤ file.content.length →
      file.content.length ≤ offset + reads.length →
      fileStreamLoop path file file.content.length socket reads offset offset
          call (file.content.take offset)
        = ⟨.returned file.content.length, file.content⟩ := by
  -- At the end of the file the loop is over, whatever reads are left.
  have hdone : ∀ (reads : List ReadAnswer) (offset call : Nat),
      offset = file.content.length →
      fileStreamLoop path file file.content.length socket reads offset offset
          call (file.content.take offset)
        = ⟨.returned file.content.length, file.content⟩ := by
    rintro reads _ call rfl
    unfold fileStreamLoop
    rw [if_neg (Nat.lt_irrefl _), List.take_length]
  intro reads
  induction reads with
  | nil =>
      intro offset call _ hle hends
      exact hdone _ _ _ (Nat.le_antisymm hle hends)
  | cons r rest ih =>
      intro offset call hnone hle hends
      rcases Nat.eq_or_lt_of_le hle with heq | hmore
      · exact hdone _ _ _ heq
      · cases r with
        | error => exact absurd List.mem_cons_self hnone
        | bytes n =>
            -- at least one byte is read, and all of them are accepted
            have hread : file.read offset
                (min bufferSize (file.content.length - offset)) (.bytes n)
              = some ((file.content.drop offset).take (min (max 1 n)
                  (min bufferSize (file.content.length - offset)))) := rfl
            generalize (file.content.drop offset).take (min (max 1 n)
                (min bufferSize (file.content.length - offset)))
              = chunk at hread
            have hwant : 0 < min bufferSize
                (file.content.length - offset) := by
              have : 0 < bufferSize := by decide
              omega
            have hstep := read_le hread hle
            have hsofar := read_some hread chunk.length (Nat.le_refl _)
            rw [List.take_length] at hsofar
            cases chunk with
            | nil =>
                exact absurd (read_nil hwant hread) (Nat.not_le.mpr hmore)
            | cons b chunk =>
                obtain ⟨n', answers, hsocket⟩ := hwrites call
                obtain ⟨hresult, haccepted⟩ :=
                  coWriteAll_of_ok (b :: chunk) n' answers
                have hgrows : 1 ≤ (b :: chunk).length := Nat.succ_pos _
                unfold fileStreamLoop
                simp only [if_pos hmore, hread, hsocket, hresult, haccepted,
                  hsofar]
                rw [List.length_cons] at hends
                exact ih _ _ (fun h => hnone (List.mem_cons_of_mem _ h))
                  hstep (by omega)

-- ================================================================= writes

/-- The transaction behind a response that was sent whole. -/
def sentWhole (r : Response) (s : Txn) : Txn :=
  { s with response := r, trace := s.trace ++ [.head r r.serialise] }

section Smooth

variable {env : Env} {disk : Bytes → File} (hsmooth : env.Smooth disk)

include hsmooth

theorem headRun_smooth (s : Txn) :
    (headRun env s).result
        = some ⟨.ok, (built env s).serialise.length⟩
      ∧ (headRun env s).accepted = (built env s).serialise := by
  obtain ⟨n, answers, hsocket⟩ := hsmooth.writes s.time 0
  unfold headRun
  rw [hsocket]
  exact coWriteAll_of_ok _ n answers

theorem afterHead_smooth (s : Txn) :
    afterHead env s = sentWhole (built env s) s := by
  unfold afterHead sentWhole
  rw [(headRun_smooth hsmooth s).2]

theorem streamHead_smooth (s : Txn) :
    streamHead env s = (.ok (), sentWhole (built env s) s) := by
  rw [streamHead_apply, (headRun_smooth hsmooth s).1,
    afterHead_smooth hsmooth]
  rfl

theorem defaultErrorPage_smooth (s : Txn) :
    defaultErrorPage env s = (.ok (), sentWhole (built env s) s) := by
  rw [defaultErrorPage_apply, (headRun_smooth hsmooth s).1,
    afterHead_smooth hsmooth]
  rfl

theorem streamFile_smooth (path name : Bytes) (s : Txn) :
    streamFile env path (disk name) (disk name).content.length s
      = (.ok (), emit (.body (disk name).content) s) := by
  have hwhole := hsmooth.whole name
  have hstream : fileStream path (disk name) (disk name).content.length
      (env.socket s.time)
      = ⟨.returned (disk name).content.length, (disk name).content⟩ :=
    fileStreamLoop_whole (hsmooth.writes s.time) _ 0 0 hwhole.reads
      (Nat.zero_le _) (by rw [Nat.zero_add]; exact hwhole.ends)
  rw [streamFile_apply, hstream]
  rfl

-- ================================================================ answers

end Smooth

/-- A response that tells no other length. -/
def TellsLength (r : Response) (n : Nat) : Prop :=
  ∀ v, r.headers.lookup (bytes "Content-Length") = some v → v = toStr n

/-- Setting another header leaves it. -/
theorem lookup_length_addHeader {r : Response} {name : Bytes} (val : Bytes)
    (hname : bytes "Content-Length" ≠ name) :
    (r.addHeader name val).headers.lookup (bytes "Content-Length")
      = r.headers.lookup (bytes "Content-Length") :=
  AList.lookup_insert_ne hname

theorem lookup_length_build (r : Response) (date : Bytes) :
    (r.build date).headers.lookup (bytes "Content-Length")
      = r.headers.lookup (bytes "Content-Length") :=
  lookup_length_addHeader date (by decide)

/-- Setting the header tells it. -/
theorem lookup_length_set (r : Response) (val : Bytes) :
    (r.addHeader (bytes "Content-Length") val).headers.lookup
      (bytes "Content-Length") = some val :=
  AList.lookup_insert _

/-- What an exception is answered with is empty and says so. -/
theorem errorResponse_empty {e : Exn} (he : Thrown e) :
    (errorResponse e).body = [] ∧ TellsLength (errorResponse e) 0 := by
  cases he with
  | http status message _ =>
      refine ⟨rfl, fun v hv => ?_⟩
      rw [errorResponse, HTTPException.mk', lookup_length_set] at hv
      exact (Option.some.inj hv).symm
  | std what =>
      refine ⟨rfl, fun v hv => ?_⟩
      cases hv

section Answers

variable (disk : Bytes → File)

/-- What an exception's answer leaves, and the response the client gets:
the default page, also where the configured one cannot be opened, or the
configured one. -/
inductive PageShape : List Event → Response → Prop
  | default {h : Response} : h.body = [] → TellsLength h 0 →
      PageShape [.head h h.serialise] h
  | unopened {p : Bytes} {h : Response} : h.body = [] → TellsLength h 0 →
      PageShape [.openedPage p, .head h h.serialise] h
  | page {p : Bytes} {h : Response} : h.body = [] →
      (disk p).Sendable →
      h.headers.lookup (bytes "Content-Length")
        = some (toStr (disk p).content.length) →
      PageShape
        [.openedPage p, .head h h.serialise, .body (disk p).content]
        { h with body := (disk p).content }

end Answers

section Smooth

variable {env : Env} {disk : Bytes → File} (hsmooth : env.Smooth disk)

include hsmooth

/-- A configured page is sent whole, or gives way to the default one. -/
theorem configuredErrorPage_smooth (file : Bytes) {s : Txn}
    (hbody : s.response.body = []) (htells : TellsLength s.response 0) :
    ∃ s' pages r, configuredErrorPage env file s = (.ok (), s')
      ∧ s'.trace = s.trace ++ pages ∧ PageShape disk pages r := by
  have hfile := hsmooth.files s.time (cStr file)
  rw [configuredErrorPage_apply]
  -- A page that cannot be opened falls back on the built-in one, whose
  -- length the head tells as well.
  by_cases hsendable : (disk (cStr file)).Sendable
  · have hopen : openFile file (env.file s.time (cStr file))
        = .ok (disk (cStr file)).content.length := by
      rw [hfile]
      exact openFile_of_sendable (hsmooth.whole _) hsendable _
    have hserve := serveErrorPage_of_open env hopen
    rw [Proc.bind_of_ok (streamHead_smooth hsmooth _), hfile,
      streamFile_smooth hsmooth] at hserve
    rw [hserve]
    refine ⟨_, _, _, rfl, ?_, .page (p := cStr file) (h := built env
      (pageStart file (disk (cStr file)).content.length s)) hbody hsendable
      ?_⟩
    · simp only [emit, sentWhole, pageStart, List.append_assoc]
      rfl
    · rw [built, lookup_length_build]
      exact lookup_length_set _ _
  · obtain ⟨e, hfails⟩ := openFile_of_not_sendable hsendable file
    rw [← hfile] at hfails
    rw [serveErrorPage_of_error env hfails]
    dsimp only
    rw [defaultErrorPage_smooth hsmooth]
    refine ⟨_, _, _, rfl, ?_, .unopened (p := cStr file)
      (h := built env (emit (.openedPage (cStr file)) s)) hbody ?_⟩
    · simp only [emit, sentWhole, List.append_assoc]
      rfl
    · intro v hv
      rw [built, lookup_length_build] at hv
      exact htells v hv

/-- An exception is answered with one response. -/
theorem answerError_smooth {e : Exn} (he : Thrown e) (s : Txn) :
    ∃ s' pages r, answerError env e s = (.ok (), s')
      ∧ s'.trace = s.trace ++ pages ∧ PageShape disk pages r := by
  obtain ⟨hbody, htells⟩ := errorResponse_empty he
  show ∃ s' pages r, errorPage env
    (s.router.getErrorPage (errorResponse e).status)
    (withResponse (errorResponse e) s) = (.ok (), s') ∧ _
  cases s.router.getErrorPage (errorResponse e).status with
  | none =>
      refine ⟨_, _, _, defaultErrorPage_smooth hsmooth _, rfl,
        .default hbody fun v hv => ?_⟩
      rw [built, lookup_length_build] at hv
      exact htells v hv
  | some file =>
      exact configuredErrorPage_smooth hsmooth file
        (s := withResponse (errorResponse e) s) hbody htells

end Smooth

-- =============================================================== handlers

section Handlers

variable (disk : Bytes → File)

/-- What a handler that returns leaves, and the response the client
gets. -/
inductive ReturnShape : HandlerKind → List Event → Response → Prop
  | file {p : Bytes} {h : Response} : h.body = [] → h.status = .ok →
      bytes "Content-Length" ∉ h.headers →
      h.headers.lookup (bytes "Connection") = some (bytes "close") →
      (disk p).Sendable →
      ReturnShape .get
        [.head h h.serialise, .opened p, .body (disk p).content]
        { h with body := (disk p).content }
  | head {p : Bytes} {h : Response} : h.body = [] → (disk p).Sendable →
      h.headers.lookup (bytes "Content-Length")
        = some (toStr (disk p).content.length) →
      ReturnShape .head [.opened p, .head h h.serialise] h
  | options {h : Response} : h.body = [] → TellsLength h 0 →
      ReturnShape .options [.head h h.serialise] h

/-- What a handler that throws leaves: nothing, HEAD's file, or the head
and the file of a GET that comes to nothing. -/
inductive ThrowShape : HandlerKind → List Event → Prop
  | silent {kind : HandlerKind} : ThrowShape kind []
  | refused {p : Bytes} : ThrowShape .head [.opened p]
  | announced {p : Bytes} {h : Response} : h.body = [] → h.status = .ok →
      ¬ (disk p).Sendable →
      ThrowShape .get [.head h h.serialise, .opened p]

/-- How a handler's run ends, unless it has spawned a script. -/
inductive RunShape (kind : HandlerKind) (s : Txn)
    (out : Except Stop Unit × Txn) : Prop
  | returned {own : List Event} {r : Response} : out.1 = .ok () →
      out.2.trace = s.trace ++ own → ReturnShape disk kind own r →
      RunShape kind s out
  | threw {e : Exn} {own : List Event} : out.1 = .error (.raised e) →
      out.2.trace = s.trace ++ own → ThrowShape disk kind own →
      RunShape kind s out
  | spawned {script args : Bytes} : .spawned script args ∈ out.2.trace →
      RunShape kind s out

end Handlers

section Smooth

variable {env : Env} {disk : Bytes → File} (hsmooth : env.Smooth disk)

/-- A script is spawned, or nothing happens. -/
theorem relayScript_shape {kind : HandlerKind} (script : Bytes) (s : Txn) :
    RunShape disk kind s (relayScript env script s) := by
  have hspawned : .spawned (cStr script) s.request.args
      ∈ (spawnedTxn script s).trace :=
    List.mem_append_right _ (List.mem_singleton_self _)
  cases hfails : env.script.fails with
  | none =>
      have hrest : Only (fun _ => True)
          (relayLoop env script env.script.reads) :=
        only_scriptLoop env (fun _ _ => True.intro) script true _
      obtain ⟨-, -, events, htrace, -⟩ := (hrest (spawnedTxn script s)).1
      have hstays := List.mem_append_left events hspawned
      rw [← htrace] at hstays
      rw [relayScript_of_none env hfails]
      exact .spawned hstays
  | some step =>
      have hrun : ∃ e, relayScript env script s = (.error (.raised e),
          if step = .write then spawnedTxn script s else s) := by
        show ∃ e, streamScript env script s.request.args _ s = _
        unfold streamScript spawn
        rw [hfails]
        cases step <;> exact ⟨_, rfl⟩
      obtain ⟨e, hrun⟩ := hrun
      rw [hrun]
      by_cases hwrite : step = .write
      · rw [if_pos hwrite]
        exact .spawned hspawned
      · rw [if_neg hwrite]
        exact .threw rfl (List.append_nil _).symm .silent

include hsmooth

/-- Behind GET's head: the file's bytes. -/
theorem sendFile_smooth {path : Bytes}
    (h : (disk (cStr path)).Sendable) (s : Txn) :
    ∃ s', sendFile env path s = (.ok (), s')
      ∧ s'.trace = s.trace
        ++ [.opened (cStr path), .body (disk (cStr path)).content] := by
  have hfile := hsmooth.files s.time (cStr path)
  have hopen : openFile path (env.file s.time (cStr path))
      = .ok (disk (cStr path)).content.length := by
    rw [hfile]
    exact openFile_of_sendable (hsmooth.whole _) h _
  unfold sendFile
  rw [Proc.bind_apply, openFileStreamer_apply, hopen, hfile]
  refine ⟨_, streamFile_smooth hsmooth path (cStr path)
    (withResponse _ (emit (.opened (cStr path)) s)), ?_⟩
  simp only [emit, withResponse, List.append_assoc]
  rfl

theorem handleFile_shape {entry : EndpointMethod} {s : Txn}
    (hbody : s.response.body = [])
    (hnone : bytes "Content-Length" ∉ s.response.headers) :
    RunShape disk .get s (GetHandler.handleFile env entry s) := by
  cases htype : determineContentType entry.resource with
  | none =>
      have hrun : ∃ e, GetHandler.handleFile env entry s
          = (.error (.raised e), s) := by
        unfold GetHandler.handleFile
        simp only [Proc.bind_apply, Proc.get_apply, htype]
        exact ⟨_, rfl⟩
      obtain ⟨e, hrun⟩ := hrun
      rw [hrun]
      exact .threw rfl (List.append_nil _).symm .silent
  | some c =>
      rw [handleFile_of_type env htype,
        Proc.bind_of_ok (streamHead_smooth hsmooth _)]
      -- The head is GET's own: a success that ends with the connection and
      -- tells no length.
      generalize hstart : withResponse (fileResponse c s.response) s = start
      have hhead : (built env start).body = []
          ∧ (built env start).status = .ok
          ∧ bytes "Content-Length" ∉ (built env start).headers
          ∧ (built env start).headers.lookup (bytes "Connection")
            = some (bytes "close") := by
        subst hstart
        refine ⟨hbody, rfl, ?_, ?_⟩
        · rw [← AList.lookup_eq_none] at hnone ⊢
          rw [built, lookup_length_build]
          exact (lookup_length_addHeader _ (by decide)).trans
            ((lookup_length_addHeader _ (by decide)).trans hnone)
        · exact (AList.lookup_insert_ne (by decide)).trans
            ((AList.lookup_insert_ne (by decide)).trans
              (AList.lookup_insert _))
      obtain ⟨hempty, hok, hlength, hclose⟩ := hhead
      have htrace : start.trace = s.trace := by
        subst hstart
        rfl
      by_cases hsendable : (disk (cStr entry.resource)).Sendable
      · obtain ⟨s', hrun, hsent⟩ := sendFile_smooth hsmooth hsendable
          (sentWhole (built env start) start)
        rw [hrun]
        refine .returned rfl ?_ (.file hempty hok hlength hclose hsendable)
        rw [hsent, sentWhole, htrace, List.append_assoc]
        rfl
      -- By then it has been sent.
      · obtain ⟨e, hfails⟩ := openFile_of_not_sendable hsendable
          entry.resource
        rw [← hsmooth.files (sentWhole (built env start) start).time]
          at hfails
        rw [sendFile_of_error env hfails]
        refine .threw rfl ?_ (.announced hempty hok hsendable)
        rw [emit, sentWhole, htrace, List.append_assoc]
        rfl

theorem headFile_shape {entry : EndpointMethod} {s : Txn}
    (hrouted : Routed s.request s.router entry)
    (hbody : s.response.body = []) :
    RunShape disk .head s (headFile env entry s) := by
  have hbuild := buildResponse_routed env hrouted
  rw [hsmooth.files] at hbuild
  have hopened : (emit (.opened (cStr entry.resource)) s).trace
      = s.trace ++ [.opened (cStr entry.resource)] := rfl
  unfold headFile
  -- HEAD opens the file to learn its length, and sends the head alone.
  by_cases hsendable : (disk (cStr entry.resource)).Sendable
  · rw [if_neg fun h => not_sendable_iff.mpr h hsendable] at hbuild
    cases htype : determineContentType entry.resource with
    | none =>
        rw [htype] at hbuild
        rw [Proc.bind_of_error hbuild]
        exact .threw rfl hopened .refused
    | some c =>
        rw [htype] at hbuild
        change HeadHandler.buildResponse env entry s
          = (.ok (), withResponse (headResponse c
            (disk (cStr entry.resource)).fileLen s.response)
            (emit (.opened (cStr entry.resource)) s)) at hbuild
        generalize hstart : withResponse (headResponse c
          (disk (cStr entry.resource)).fileLen s.response)
          (emit (.opened (cStr entry.resource)) s) = start at hbuild
        rw [Proc.bind_of_ok hbuild, streamHead_smooth hsmooth]
        refine .returned rfl ?_
          (.head (h := built env start) ?_ hsendable ?_)
        · subst hstart
          simp only [emit, withResponse, sentWhole, List.append_assoc]
          rfl
        · subst hstart
          exact hbody
        · subst hstart
          rw [← (hsmooth.whole _).fileLen hsendable]
          exact (lookup_length_build _ _).trans (lookup_length_set _ _)
  · rw [if_pos (not_sendable_iff.mp hsendable)] at hbuild
    rw [Proc.bind_of_error hbuild]
    exact .threw rfl hopened .refused

/-- Every handler's run. -/
theorem run_shape (kind : HandlerKind) {entry : EndpointMethod} {s : Txn}
    (hrouted : Routed s.request s.router entry)
    (hbody : s.response.body = [])
    (hnone : bytes "Content-Length" ∉ s.response.headers) :
    RunShape disk kind s (kind.run env s) := by
  have hthrows : ∀ {e : Exn},
      RunShape disk kind s (.error (.raised e), s) :=
    .threw rfl (List.append_nil _).symm .silent
  cases kind with
  | get =>
      rw [show HandlerKind.get.run env s = _ from
        getHandler_routed env hrouted]
      split
      · exact relayScript_shape _ s
      · exact handleFile_shape hsmooth hbody hnone
  | post =>
      rw [show HandlerKind.post.run env s = _ from
        postHandler_routed env hrouted]
      split
      · exact relayScript_shape _ s
      · exact hthrows
  | head =>
      rw [show HandlerKind.head.run env s = _ from
        headHandler_routed env hrouted]
      split
      · exact hthrows
      · exact headFile_shape hsmooth hrouted hbody
  | options =>
      obtain ⟨ep, hrun⟩ := optionsHandler_routed env hrouted
      obtain ⟨n, answers, hsocket⟩ := hsmooth.writes s.time 0
      rw [show HandlerKind.options.run env s = _ from hrun, hsocket,
        if_neg (List.cons_ne_nil _ _)]
      -- The one write that OPTIONS makes takes all of the head.
      have htaken : ∀ buffer,
          firstTaken buffer (⟨.ok, n⟩ :: answers) = buffer := by
        intro buffer
        rw [firstTaken, WriteAnswer.taken_ok rfl, List.take_length]
      rw [htaken]
      refine .returned rfl rfl (.options hbody fun v hv => ?_)
      rw [optionsResponse, lookup_length_build,
        lookup_length_addHeader _ (by decide), lookup_length_set] at hv
      exact (Option.some.inj hv).symm

end Smooth

-- =============================================================== sessions

/-- The gate leaves a response's body empty. -/
theorem gateFrame_body (env : Env) :
    GateFrame env fun s s' =>
      s.response.body = [] → s'.response.body = [] where
  refl _ h := h
  trans _ _ _ h h' hs := h' (h hs)
  headers s fields _ h := by
    have hfold : ∀ (fields : List (Bytes × Bytes)) (r : Response),
        (fields.foldl (fun r h => r.addHeader h.1 h.2) r).body
          = r.body := by
      intro fields
      induction fields with
      | nil => exact fun _ => rfl
      | cons field rest ih => exact fun r => ih _
    exact (hfold fields s.response).trans h
  lookup _ _ _ _ _ h := h
  request _ _ h := h
  minted _ _ h := h

/-- Every entry of a table that has grown has a handler. -/
theorem Router.WellRouted.handler_grown {r r' : Router}
    (h : r.WellRouted) (hgrown : Grown r r') {p : RoutePtr}
    {entry : EndpointMethod} (hentry : r'.derefRoute p = some entry) :
    ∃ kind, entry.handler = some kind := by
  obtain ⟨ep, hep, hmethod⟩ := Option.bind_eq_some_iff.mp hentry
  rcases hgrown.fresh p.endpoint ep hep with hold | hnew
  · obtain ⟨kind, -, hkind⟩ := (h _ ep hold p.method entry hmethod).handler
    exact ⟨kind, hkind⟩
  · cases hnew
    cases hm : p.method with
    | get =>
        rw [hm] at hmethod
        cases hmethod
        exact ⟨.get, rfl⟩
    | head =>
        rw [hm] at hmethod
        cases hmethod
        exact ⟨.head, rfl⟩
    | post | options | notAllowed =>
        rw [hm] at hmethod
        cases hmethod

/-- What a session leaves, and the response that answers the client: the
gate refuses, a handler returns, or a handler throws. Only tokens are
minted before. -/
inductive SessionShape (disk : Bytes → File) :
    List Event → Response → Prop
  | refused {gate pages : List Event} {r : Response} :
      (∀ e ∈ gate, ∃ cookie, e = .minted cookie) →
      PageShape disk pages r → SessionShape disk (gate ++ pages) r
  | served {gate own : List Event} {kind : HandlerKind} {r : Response} :
      (∀ e ∈ gate, ∃ cookie, e = .minted cookie) →
      ReturnShape disk kind own r →
      SessionShape disk (gate ++ .handler kind :: own) r
  | answered {gate own pages : List Event} {kind : HandlerKind}
      {r : Response} : (∀ e ∈ gate, ∃ cookie, e = .minted cookie) →
      ThrowShape disk kind own → PageShape disk pages r →
      SessionShape disk (gate ++ .handler kind :: (own ++ pages)) r

section Smooth

variable {env : Env} {disk : Bytes → File} (hsmooth : env.Smooth disk)

include hsmooth

/-- `ErrorHandler` behind a run of the finisher. -/
theorem finished_shape {kind : HandlerKind} {gate : List Event} {s₁ s : Txn}
    (hminted : ∀ e ∈ gate, ∃ cookie, e = .minted cookie)
    (hgate : s₁.trace = gate)
    (hrun : RunShape disk kind (begun kind s₁) (finish env s₁))
    (hthrown : ∀ stop, (finish env s₁).1 = .error stop → ThrownStop stop)
    (hend : (match finish env s₁ with
        | (.ok u, s') => (.ok u, s')
        | (.error (.raised e), s') => answerError env e s'
        | (.error stop, s') => (.error stop, s')) = (.ok (), s))
    (hunspawned : ∀ script args, .spawned script args ∉ s.trace) :
    ∃ r, SessionShape disk s.trace r := by
  have hbegun : (begun kind s₁).trace = gate ++ [.handler kind] := by
    rw [begun, hgate]
  -- A handler that returns is the end; an exception is answered.
  cases hfinish : finish env s₁ with
  | mk result s₂ =>
      rw [hfinish] at hend hrun hthrown
      cases result with
      | ok u =>
          obtain rfl : s₂ = s := congrArg Prod.snd hend
          cases hrun with
          | @returned own r _ htrace hshape =>
              refine ⟨r, ?_⟩
              have hall := SessionShape.served hminted hshape
              rw [htrace, hbegun, List.append_assoc]
              exact hall
          | threw hraised => cases hraised
          | spawned hmem => exact absurd hmem (hunspawned _ _)
      | error stop =>
          cases stop with
          | pending => cases hend
          | crash => cases hend
          | raised e =>
              have he : Thrown e := hthrown _ rfl e rfl
              obtain ⟨s', pages, r, hanswer, htrace', hpages⟩ :=
                answerError_smooth hsmooth he s₂
              obtain rfl : s' = s :=
                congrArg Prod.snd (hanswer.symm.trans hend)
              cases hrun with
              | returned hok => cases hok
              | @threw _ own _ htrace hshape =>
                  refine ⟨r, ?_⟩
                  have hall := SessionShape.answered hminted hshape hpages
                  rw [htrace', htrace, hbegun, List.append_assoc,
                    List.append_assoc]
                  exact hall
              | spawned hmem =>
                  have hstays := List.mem_append_left pages hmem
                  rw [← htrace'] at hstays
                  exact absurd hstays (hunspawned _ _)

/-- A session that returns without having spawned a script leaves one of
the rows. -/
theorem session_shape {before after : List Limiter} {srv : Server}
    (hpipeline : srv.pipeline
      = .logger :: .errorHandler :: gateComponents before after)
    (hhandlers : ∀ router, Grown srv.router router → ∀ p entry,
      router.derefRoute p = some entry → ∃ kind, entry.handler = some kind)
    {s : Txn} (hreturns : runPipeline env srv.pipeline
      { router := srv.router } = (.ok (), s))
    (hunspawned : ∀ script args, .spawned script args ∉ s.trace) :
    ∃ r, SessionShape disk s.trace r := by
  have hsession : runPipeline env srv.pipeline
      = errorHandlerProcess env
          (runPipeline env (gateComponents before after)) := by
    rw [hpipeline]
    rfl
  have hgate := isGate_gateComponents before after
  -- The gate mints tokens, keeps the body empty and tells no length.
  have hquiet :=
    gateQuiet_runPipeline env hgate { router := srv.router }
  have hbody := (gate_runPipeline (gateFrame_body env) hgate
    { router := srv.router }).1 rfl
  have hnone := (gate_runPipeline (gateFrame_noLength env) hgate
    { router := srv.router }).1 (AList.notMem_empty _)
  rw [hsession, errorHandler_apply] at hreturns
  cases hrun : runPipeline env (gateComponents before after)
      { router := srv.router } with
  | mk result s₁ =>
      rw [hrun] at hquiet hbody hnone
      obtain ⟨⟨hgrown, gate, htrace, hminted⟩, hthrown⟩ := hquiet
      cases result with
      | error stop =>
          rw [Proc.bind_of_error hrun] at hreturns
          cases stop with
          | pending => cases hreturns
          | crash => cases hreturns
          | raised e =>
              have he : Thrown e := hthrown _ rfl e rfl
              obtain ⟨s', pages, r, hanswer, htrace', hpages⟩ :=
                answerError_smooth hsmooth he s₁
              obtain rfl : s' = s :=
                congrArg Prod.snd (hanswer.symm.trans hreturns)
              refine ⟨r, ?_⟩
              have hall := SessionShape.refused hminted hpages
              rw [htrace', htrace]
              exact hall
      | ok u =>
          rw [Proc.bind_of_ok hrun] at hreturns
          obtain ⟨entry, hpassed⟩ := gate_ok env hrun
          obtain ⟨kind, hkind⟩ :=
            hhandlers _ hgrown _ entry hpassed.routed.entry
          have hshape := run_shape hsmooth kind (s := begun kind s₁)
            hpassed.routed hbody hnone
          rw [← finish_of_handler env hpassed.routed hkind] at hshape
          exact finished_shape hsmooth hminted htrace hshape
            (finish_thrown env hpassed.routed) hreturns hunspawned

end Smooth

-- ============================================================== the client

theorem received_append (a b : List Event) :
    received (a ++ b) = received a ++ received b := List.flatMap_append

/-- A head without a body, and the body behind it. -/
theorem serialise_withBody {h : Response} (hbody : h.body = [])
    (body : Bytes) :
    h.serialise ++ body = Response.serialise { h with body := body } := by
  unfold Response.serialise
  rw [hbody, List.append_nil]

/-- A response's text among some events: its bytes, and the head its lines
are from. -/
structure TextOf (events : List Event) (r : Response) : Prop where
  bytes : received events = r.serialise
  head : ∃ h ∈ headsOf events, h.statusMsg = r.statusMsg
    ∧ h.headers = r.headers

/-- The text reads back where the heads do. -/
theorem TextOf.readsAs {events : List Event} {r : Response}
    (h : TextOf events r) (hlegible : ∀ h ∈ headsOf events, Legible h) :
    ReadsAs r.serialise r := by
  obtain ⟨head, hmem, hline, hheaders⟩ := h.head
  have hhead := hlegible head hmem
  exact Legible.readsAs ⟨hline ▸ hhead.line, hheaders ▸ hhead.fields⟩

section Client

variable (disk : Bytes → File)

/-- GET has announced a file that it cannot send. -/
def Misannounced (trace : List Event) : Prop :=
  .handler .get ∈ trace ∧ ∃ p, .opened p ∈ trace ∧ ¬ (disk p).Sendable

/-- The length HEAD tells is that of the file it does not send. -/
def ToldByHead (trace : List Event) (r : Response) (v : Bytes) : Prop :=
  .handler .head ∈ trace ∧ r.body = []
    ∧ ∃ p, .opened p ∈ trace ∧ v = toStr (disk p).content.length

/-- A response whose body ends where it says, and what the body is. -/
structure Framed (trace : List Event) (r : Response) : Prop where
  length : ∀ v, r.headers.lookup (bytes "Content-Length") = some v →
    v = toStr r.body.length ∨ ToldByHead disk trace r v
  ending : r.body ≠ [] → bytes "Content-Length" ∈ r.headers
    ∨ r.headers.lookup (bytes "Connection") = some (bytes "close")
  body : r.body ≠ [] → ∃ p, (disk p).Sendable ∧ r.body = (disk p).content
    ∧ (.openedPage p ∈ trace ∨ .handler .get ∈ trace ∧ .opened p ∈ trace)
  file : ∀ p, .handler .get ∈ trace → .opened p ∈ trace →
    (disk p).Sendable → r.status = .ok ∧ r.body = (disk p).content

/-- What the client of a session gets. -/
structure ClientGets (trace : List Event) (before : Bytes) (r : Response) :
    Prop where
  bytes : received trace = before ++ r.serialise
  reads : ReadsAs r.serialise r
  framed : Framed disk trace r
  alone : ¬ Misannounced disk trace → before = []
  announced : Misannounced disk trace → ∃ h, before = Response.serialise h
    ∧ ReadsAs h.serialise h ∧ h.status = .ok ∧ h.body = []

end Client

section Shapes

variable {disk : Bytes → File} {pages own trace : List Event}
  {kind : HandlerKind} {r : Response}

theorem PageShape.events (h : PageShape disk pages r) :
    ∀ e ∈ pages, PageEvent e := by
  cases h <;> simp [PageEvent]

theorem PageShape.textOf (h : PageShape disk pages r) : TextOf pages r := by
  cases h with
  | default hbody htells =>
      exact ⟨by simp [received], r, by simp [headsOf, Event.head?], rfl, rfl⟩
  | unopened hbody htells =>
      exact ⟨by simp [received], r, by simp [headsOf, Event.head?], rfl, rfl⟩
  | @page p h hbody hsendable hlength =>
      refine ⟨?_, h, by simp [headsOf, Event.head?], rfl, rfl⟩
      simp [received, serialise_withBody hbody]

theorem PageShape.framed (h : PageShape disk pages r)
    (hmem : ∀ e ∈ pages, e ∈ trace)
    (hfile : ∀ p, .handler .get ∈ trace → .opened p ∈ trace →
      ¬ (disk p).Sendable) : Framed disk trace r := by
  have hnone : ∀ p, .handler .get ∈ trace → .opened p ∈ trace →
      (disk p).Sendable → r.status = .ok ∧ r.body = (disk p).content :=
    fun p hget hopened hsendable =>
      absurd hsendable (hfile p hget hopened)
  have hempty : r.body = [] → TellsLength r 0 → Framed disk trace r := by
    intro hbody htells
    refine ⟨fun v hv => Or.inl ?_, fun h => absurd hbody h,
      fun h => absurd hbody h, hnone⟩
    rw [hbody]
    exact htells v hv
  cases h with
  | default hbody htells => exact hempty hbody htells
  | unopened hbody htells => exact hempty hbody htells
  | @page p h hbody hsendable hlength =>
      refine ⟨fun v hv => Or.inl ?_, fun _ => Or.inl ?_, fun _ => ?_, hnone⟩
      · exact (Option.some.inj (hlength.symm.trans hv)).symm
      · exact AList.lookup_isSome.mp (by rw [hlength]; rfl)
      · exact ⟨p, hsendable, rfl, Or.inl (hmem _ List.mem_cons_self)⟩

theorem ReturnShape.textOf (h : ReturnShape disk kind own r) :
    TextOf own r := by
  cases h with
  | @file p h hbody _ _ _ _ =>
      refine ⟨?_, h, by simp [headsOf, Event.head?], rfl, rfl⟩
      simp [received, serialise_withBody hbody]
  | head hbody _ _ =>
      exact ⟨by simp [received], r, by simp [headsOf, Event.head?], rfl, rfl⟩
  | options hbody _ =>
      exact ⟨by simp [received], r, by simp [headsOf, Event.head?], rfl, rfl⟩

theorem ReturnShape.framed (h : ReturnShape disk kind own r)
    (hkind : .handler kind ∈ trace) (hmem : ∀ e ∈ own, e ∈ trace)
    (honly : ∀ p, .handler .get ∈ trace → .opened p ∈ trace →
      kind = .get ∧ .opened p ∈ own) : Framed disk trace r := by
  cases h with
  | @file p h hbody hok hlength hclose hsendable =>
      have hopened : .opened p ∈ trace := hmem _ (by simp)
      refine ⟨fun v hv => ?_, fun _ => Or.inr hclose, fun _ => ?_,
        fun p' hget hopened' _ => ⟨hok, ?_⟩⟩
      · exact absurd (AList.lookup_isSome.mp (by rw [hv]; rfl)) hlength
      · exact ⟨p, hsendable, rfl, Or.inr ⟨hkind, hopened⟩⟩
      · have hsame := (honly p' hget hopened').2
        simp only [List.mem_cons, List.not_mem_nil, or_false, false_or,
          Event.opened.injEq, reduceCtorEq] at hsame
        rw [hsame]
  | @head p h hbody hsendable hlength =>
      refine ⟨fun v hv => Or.inr ⟨hkind, hbody, p, hmem _ (by simp), ?_⟩,
        fun h => absurd hbody h, fun h => absurd hbody h,
        fun p' hget hopened' _ => ?_⟩
      · exact (Option.some.inj (hlength.symm.trans hv)).symm
      · cases (honly p' hget hopened').1
  | options hbody htells =>
      refine ⟨fun v hv => Or.inl ?_, fun h => absurd hbody h,
        fun h => absurd hbody h, fun p' hget hopened' _ => ?_⟩
      · rw [hbody]
        exact htells v hv
      · cases (honly p' hget hopened').1

/-- Behind the gate's tokens stands what is no token. -/
theorem mem_behind_gate {gate row : List Event} {e : Event}
    (hminted : ∀ e ∈ gate, ∃ cookie, e = .minted cookie)
    (he : ∀ cookie, e ≠ .minted cookie) (h : e ∈ gate ++ row) : e ∈ row := by
  rcases List.mem_append.mp h with hgate | hrow
  · obtain ⟨cookie, rfl⟩ := hminted e hgate
    exact absurd rfl (he cookie)
  · exact hrow

/-- The gate sends nothing. -/
theorem received_gate {gate : List Event}
    (hminted : ∀ e ∈ gate, ∃ cookie, e = .minted cookie)
    (row : List Event) : received (gate ++ row) = received row := by
  have hnothing : received gate = [] := by
    unfold received
    refine List.flatMap_eq_nil_iff.mpr fun e he => ?_
    obtain ⟨cookie, rfl⟩ := hminted e he
    rfl
  rw [received_append, hnothing, List.nil_append]

/-- A handler's file and its kind are not in an error page's row. -/
theorem PageShape.no_handler (h : PageShape disk pages r)
    (kind : HandlerKind) : .handler kind ∉ pages :=
  fun hmem => h.events _ hmem

theorem PageShape.no_file (h : PageShape disk pages r) (p : Bytes) :
    .opened p ∉ pages :=
  fun hmem => h.events _ hmem

/-- A row without GET's unsent file is one response. -/
theorem clientGets_alone {row : List Event} (htext : TextOf row r)
    (hreceived : received trace = received row) (hrow : row ⊆ trace)
    (hlegible : ∀ h ∈ headsOf trace, Legible h)
    (hframed : Framed disk trace r) (halone : ¬ Misannounced disk trace) :
    ClientGets disk trace [] r where
  bytes := by rw [hreceived, htext.bytes, List.nil_append]
  reads := by
    refine htext.readsAs fun h hh => hlegible h ?_
    obtain ⟨accepted, hmem⟩ := mem_headsOf.mp hh
    exact mem_headsOf.mpr ⟨accepted, hrow hmem⟩
  framed := hframed
  alone _ := rfl
  announced h := absurd h halone

/-- Where GET has announced a file that it cannot send, the announcement
comes first. -/
theorem clientGets_announced {row : List Event} {p : Bytes} {h : Response}
    (htext : TextOf row r)
    (hreceived : received trace = h.serialise ++ received row)
    (hrow : row ⊆ trace) (hlegible : ∀ h ∈ headsOf trace, Legible h)
    (hframed : Framed disk trace r) (hget : .handler .get ∈ trace)
    (hopened : .opened p ∈ trace) (hunsent : ¬ (disk p).Sendable)
    (hhead : .head h h.serialise ∈ trace) (hok : h.status = .ok)
    (hbody : h.body = []) :
    ClientGets disk trace h.serialise r where
  bytes := by rw [hreceived, htext.bytes]
  reads := by
    refine htext.readsAs fun h hh => hlegible h ?_
    obtain ⟨accepted, hmem⟩ := mem_headsOf.mp hh
    exact mem_headsOf.mpr ⟨accepted, hrow hmem⟩
  framed := hframed
  alone h := absurd ⟨hget, p, hopened, hunsent⟩ h
  announced _ := ⟨h, rfl,
    (hlegible h (mem_headsOf.mpr ⟨_, hhead⟩)).readsAs, hok, hbody⟩

/-- Nor is a kind in a handler's own row. -/
theorem ReturnShape.no_handler (h : ReturnShape disk kind own r)
    (k : HandlerKind) : .handler k ∉ own := by
  cases h <;> simp

theorem ThrowShape.no_handler (h : ThrowShape disk kind own)
    (k : HandlerKind) : .handler k ∉ own := by
  cases h <;> simp

/-- A GET that returns has sent its file, and one that throws cannot. -/
theorem ReturnShape.sendable (h : ReturnShape disk kind own r) {p : Bytes}
    (hkind : kind = .get) (hp : .opened p ∈ own) : (disk p).Sendable := by
  cases h with
  | file _ _ _ _ hsendable =>
      simp only [List.mem_cons, List.not_mem_nil, or_false, false_or,
        Event.opened.injEq, reduceCtorEq] at hp
      rw [hp]
      exact hsendable
  | head => cases hkind
  | options => cases hkind

theorem ThrowShape.not_sendable (h : ThrowShape disk kind own) {p : Bytes}
    (hkind : kind = .get) (hp : .opened p ∈ own) : ¬ (disk p).Sendable := by
  cases h with
  | silent => cases hp
  | refused => cases hkind
  | announced _ _ hnot =>
      simp only [List.mem_cons, List.not_mem_nil, or_false, false_or,
        Event.opened.injEq, reduceCtorEq] at hp
      rw [hp]
      exact hnot

section Behind

variable {gate row : List Event}
  (hminted : ∀ e ∈ gate, ∃ cookie, e = .minted cookie)

include hminted

/-- One handler runs behind the gate. -/
theorem kind_behind_gate (hnone : ∀ k, .handler k ∉ row) {k : HandlerKind}
    (h : .handler k ∈ gate ++ .handler kind :: row) : k = kind := by
  rcases List.mem_cons.mp (mem_behind_gate hminted (fun _ => by simp) h)
    with heq | hin
  · exact Event.handler.inj heq
  · exact absurd hin (hnone k)

/-- What is opened is opened behind it. -/
theorem opened_behind_gate {p : Bytes}
    (h : .opened p ∈ gate ++ .handler kind :: row) : .opened p ∈ row := by
  rcases List.mem_cons.mp (mem_behind_gate hminted (fun _ => by simp) h)
    with heq | hin
  · cases heq
  · exact hin

theorem received_behind_gate :
    received (gate ++ .handler kind :: row) = received row :=
  received_gate hminted _

end Behind

/-- Every row is one response, behind the announcement of GET's unsent
file where there is one. -/
theorem SessionShape.clientGets (h : SessionShape disk trace r)
    (hlegible : ∀ h ∈ headsOf trace, Legible h) :
    ∃ before, ClientGets disk trace before r := by
  cases h with
  | @refused gate pages r hminted hpages =>
      have hnone : ∀ k, .handler k ∉ gate ++ pages := fun k hk =>
        hpages.no_handler k (mem_behind_gate hminted (fun _ => by simp) hk)
      refine ⟨[], clientGets_alone hpages.textOf (received_gate hminted _)
        (List.subset_append_right _ _) hlegible ?_ ?_⟩
      · exact hpages.framed (fun e he => List.mem_append_right _ he)
          fun p hget _ => absurd hget (hnone _)
      · exact fun hmis => hnone _ hmis.1
  | @served gate own kind r hminted hown =>
      have hsub : own ⊆ gate ++ .handler kind :: own := fun e he =>
        List.mem_append_right _ (List.mem_cons_of_mem _ he)
      have hget : ∀ k, .handler k ∈ gate ++ .handler kind :: own → k = kind :=
        fun k => kind_behind_gate hminted hown.no_handler
      refine ⟨[], clientGets_alone hown.textOf (received_behind_gate hminted)
        hsub hlegible ?_ ?_⟩
      · refine hown.framed ?_ hsub fun p hkind hopened => ?_
        · exact List.mem_append_right _ List.mem_cons_self
        · exact ⟨(hget _ hkind).symm, opened_behind_gate hminted hopened⟩
      · rintro ⟨hkind, p, hopened, hunsent⟩
        exact hunsent (hown.sendable (hget _ hkind).symm
          (opened_behind_gate hminted hopened))
  | @answered gate own pages kind r hminted hown hpages =>
      -- Neither the handler nor the answer starts a second handler.
      have hnone : ∀ k, .handler k ∉ own ++ pages := fun k hk =>
        (List.mem_append.mp hk).elim (hown.no_handler k) (hpages.no_handler k)
      have hget : ∀ k, .handler k ∈ gate ++ .handler kind :: (own ++ pages) →
          k = kind := fun k => kind_behind_gate hminted hnone
      have hopened : ∀ p, .opened p ∈ gate ++ .handler kind :: (own ++ pages)
          → .opened p ∈ own := fun p hp =>
        (List.mem_append.mp (opened_behind_gate hminted hp)).resolve_right
          (hpages.no_file p)
      have hsub : own ++ pages ⊆ gate ++ .handler kind :: (own ++ pages) :=
        fun e he => List.mem_append_right _ (List.mem_cons_of_mem _ he)
      have hsubPages : pages ⊆ gate ++ .handler kind :: (own ++ pages) :=
        fun e he => hsub (List.mem_append_right _ he)
      have hreceived : received (gate ++ .handler kind :: (own ++ pages))
          = received (own ++ pages) := received_behind_gate hminted
      have hunsent : ∀ p, .handler .get ∈ gate ++ .handler kind ::
          (own ++ pages) → .opened p ∈ gate ++ .handler kind ::
          (own ++ pages) → ¬ (disk p).Sendable := fun p hkind hp =>
        hown.not_sendable (hget _ hkind).symm (hopened p hp)
      have hframed := hpages.framed hsubPages hunsent
      cases hown with
      | silent =>
          refine ⟨[], clientGets_alone hpages.textOf hreceived hsubPages
            hlegible hframed ?_⟩
          rintro ⟨-, p, hp, -⟩
          cases hopened p hp
      | refused =>
          refine ⟨[], clientGets_alone hpages.textOf hreceived hsubPages
            hlegible hframed ?_⟩
          rintro ⟨hkind, -⟩
          cases hget _ hkind
      | @announced p h hbody hok hnot =>
          refine ⟨h.serialise, clientGets_announced hpages.textOf hreceived
            hsubPages hlegible hframed ?_ (hsub ?_) hnot (hsub ?_) hok hbody⟩
          · exact List.mem_append_right _ List.mem_cons_self
          · exact List.mem_cons_of_mem _ List.mem_cons_self
          · exact List.mem_cons_self

end Shapes

-- ========================================================== one response

/-- Whether an event starts a script. -/
def Event.spawns : Event → Bool
  | .spawned _ _ => true
  | _ => false

/-- For every configuration that loads and every sequence of sessions: a
later session whose writes do not fail, whose files are read as they were
opened, and that returns without having spawned a script has sent its
client one response, which reads back, whose body is the file that was
opened for it and ends where the head says. The one thing in front of it
can be the head of a GET whose file cannot be sent, a `200 OK` without a
body. -/
theorem one_response {contentPath : Bytes} {serverConfig : XMLElement}
    {errorPages : AList fun _ : Code => Bytes} {srv : Server}
    (h : initializeServer contentPath serverConfig errorPages = .ok srv)
    (envs : List Env) {env : Env} {disk : Bytes → File}
    (hsmooth : env.Smooth disk) (hplain : WritesPlain env) {s : Txn}
    (hreturns : runPipeline env (srv.after envs).pipeline
      { router := (srv.after envs).router } = (.ok (), s))
    (hunspawned : ∀ e ∈ s.trace, e.spawns = false) :
    ∃ before r, ClientGets disk s.trace before r := by
  obtain ⟨before, after, hpipeline, -⟩ := initializeServer_gate h
  obtain ⟨hsame, hgrown⟩ := grown_after hpipeline envs
  have hhandlers : ∀ router, Grown (srv.after envs).router router →
      ∀ p entry, router.derefRoute p = some entry →
        ∃ kind, entry.handler = some kind := fun router hlater p entry =>
    (wellRouted_initializeServer h).handler_grown (hgrown.trans hlater)
  obtain ⟨r, hshape⟩ := session_shape hsmooth (hsame.trans hpipeline)
    hhandlers hreturns fun script args hmem => nomatch hunspawned _ hmem
  have hlegible : ∀ h ∈ headsOf s.trace, Legible h := by
    have hdraft := draft_transact (headKind_legible hplain)
      (srv.after envs).pipeline (srv.after envs).router
    rw [transact, hreturns] at hdraft
    exact hdraft.heads
  obtain ⟨before, hgets⟩ := hshape.clientGets hlegible
  exact ⟨before, r, hgets⟩

/-- A client that asks for a style sheet, on the same day. -/
def sheetEnv (fileLen : Int) : Env :=
  { assetEnv fileLen with
    date := fun _ => getTimeStamp sunday
    mint := fun _ => [] }

/-- The sheet: one letter, or nothing. -/
def sheet (fileLen : Int) : Bytes → File := fun _ =>
  { opens := true, fileLen := fileLen, content := bytes "a",
    reads := [.bytes 1] }

/-- Whether an event starts a handler of the kind. -/
def Event.runs (kind : HandlerKind) : Event → Bool
  | .handler k => k == kind
  | _ => false

theorem handler_of_any_runs {kind : HandlerKind} {trace : List Event}
    (h : trace.any (·.runs kind) = true) : .handler kind ∈ trace := by
  obtain ⟨e, he, hruns⟩ := List.any_eq_true.mp h
  cases e with
  | handler k =>
      obtain rfl := eq_of_beq hruns
      exact he
  | _ => cases hruns

/-- Its writes do not fail, and its date is `get_time_stamp`'s. -/
theorem smooth_sheetEnv {fileLen : Int} (h : fileLen ≤ 1) :
    (sheetEnv fileLen).Smooth (sheet fileLen) where
  writes _ _ := ⟨_, _, rfl⟩
  files _ _ := rfl
  whole _ := {
    fileLen := fun hsendable => Int.le_antisymm h hsendable.2
    reads := fun herror => nomatch List.mem_singleton.mp herror
    ends := Nat.le_refl _ }

theorem writesPlain_sheetEnv (fileLen : Int) :
    WritesPlain (sheetEnv fileLen) :=
  ⟨fun _ => ⟨_, rfl⟩, fun _ => List.not_mem_nil⟩

/-- The sheet is sent, and an empty one is announced and refused. -/
theorem one_response_sheet :
    (∃ r : Response,
        received (emptyServer.serve (sheetEnv 1)).trace = r.serialise
        ∧ r.status = .ok ∧ r.body = bytes "a")
      ∧ ∃ h r : Response,
        received (emptyServer.serve (sheetEnv 0)).trace
            = h.serialise ++ r.serialise
        ∧ h.status = .ok ∧ h.body = [] := by
  have hget : ∀ fileLen, fileLen = 0 ∨ fileLen = 1 →
      .handler .get ∈ (emptyServer.serve (sheetEnv fileLen)).trace := by
    rintro fileLen (rfl | rfl) <;>
      exact handler_of_any_runs (by decide +kernel)
  have hopened : ∀ fileLen, fileLen = 0 ∨ fileLen = 1 →
      .opened (bytes "public/app.css")
        ∈ (emptyServer.serve (sheetEnv fileLen)).trace := by
    rintro fileLen (rfl | rfl) <;>
      exact opened_of_any_opens (by decide +kernel)
  have hreturns : ∀ fileLen, fileLen = 0 ∨ fileLen = 1 →
      runPipeline (sheetEnv fileLen) (emptyServer.after []).pipeline
          { router := (emptyServer.after []).router }
        = (.ok (), emptyServer.serve (sheetEnv fileLen)) := by
    rintro fileLen (rfl | rfl) <;>
      exact Prod.ext (by decide +kernel)
        (by simp only [Server.serve, transact, Server.after])
  -- The same file is sent whole when its length is told right, and is
  -- announced and then refused when it is told to be empty.
  constructor
  · obtain ⟨before, r, hgets⟩ := one_response initializeServer_empty []
      (smooth_sheetEnv (Int.le_refl 1)) (writesPlain_sheetEnv 1)
      (hreturns 1 (Or.inr rfl)) (by decide +kernel)
    have hsendable : ∀ p, (sheet 1 p).Sendable := fun _ => ⟨rfl, Int.one_pos⟩
    obtain ⟨hok, hbody⟩ := hgets.framed.file _ (hget 1 (Or.inr rfl))
      (hopened 1 (Or.inr rfl)) (hsendable _)
    have halone := hgets.alone fun hmis => hmis.2.choose_spec.2 (hsendable _)
    refine ⟨r, ?_, hok, hbody⟩
    rw [hgets.bytes, halone, List.nil_append]
  · obtain ⟨before, r, hgets⟩ := one_response initializeServer_empty []
      (smooth_sheetEnv (by decide)) (writesPlain_sheetEnv 0)
      (hreturns 0 (Or.inl rfl)) (by decide +kernel)
    obtain ⟨h, rfl, -, hok, hbody⟩ := hgets.announced
      ⟨hget 0 (Or.inl rfl), _, hopened 0 (Or.inl rfl), by decide⟩
    exact ⟨h, r, hgets.bytes, hok, hbody⟩

end CgiWebServer
