/-
The heads a session sends, and the response it keeps.

# What is carried along

A kind of response `I` that the server's own changes respect
(`HeadKind`) is a kind of every response the session keeps and of every
head it sends. `Posted` says more: the response has the status line and
the status of the last head, or of a fresh response as long as there is
no head. Between a change of the line and the head that tells it only
`Draft` holds, and a process that stops may stop there.

# The walk

There is one contract for each process. A step that changes no line
stays in the state it is called in, be it a draft or posted (`Stays`);
whatever sends a head posts a draft (`Posts`). Behind an exception
`ErrorHandler` starts from a draft again: the exception's response.
-/
import CgiWebServer.Lib.Contract
import CgiWebServer.Proofs.Exceptions
import CgiWebServer.Proofs.Writing

namespace CgiWebServer

open Process

-- ================================================================== heads

/-- The head an event sends. -/
def Event.head? : Event → Option Response
  | .head r _ => some r
  | _ => none

/-- The heads among some events. -/
def headsOf (trace : List Event) : List Response := trace.filterMap Event.head?

/-- The last head, or the response a transaction starts with. -/
def lastHead (trace : List Event) : Response :=
  (headsOf trace).getLast?.getD {}

/-- Two responses with one status line, and one status. -/
def SameLine (r r' : Response) : Prop :=
  r.statusMsg = r'.statusMsg ∧ r.status = r'.status

theorem mem_headsOf {trace : List Event} {r : Response} :
    r ∈ headsOf trace ↔ ∃ accepted, .head r accepted ∈ trace := by
  unfold headsOf
  rw [List.mem_filterMap]
  constructor
  · rintro ⟨e, he, hhead⟩
    cases e with
    | head r' accepted => exact ⟨accepted, Option.some.inj hhead ▸ he⟩
    | _ => cases hhead
  · rintro ⟨accepted, he⟩
    exact ⟨_, he, rfl⟩

theorem headsOf_snoc_head (trace : List Event) (r : Response) (b : Bytes) :
    headsOf (trace ++ [.head r b]) = headsOf trace ++ [r] := by
  unfold headsOf
  rw [List.filterMap_append]
  rfl

theorem headsOf_snoc_other {e : Event} (he : e.head? = none)
    (trace : List Event) : headsOf (trace ++ [e]) = headsOf trace := by
  unfold headsOf
  rw [List.filterMap_append, List.filterMap_cons_none he]
  exact List.append_nil _

-- ================================================================== kinds

/-- The names under which the server sends numbers. -/
def numberNames : List Bytes :=
  [bytes "Content-Length", bytes "Content-Type", bytes "X-RateLimit-Limit",
   bytes "X-RateLimit-Remaining", bytes "X-RateLimit-Reset",
   bytes "Retry-After"]

/-- The header fields the server adds of its own. -/
inductive OwnField (env : Env) : Bytes → Bytes → Prop
  | date (time : Nat) : OwnField env (bytes "Date") (env.date time)
  | connection : OwnField env (bytes "Connection") (bytes "close")
  | contentType {path v : Bytes} : determineContentType path = some v →
      OwnField env (bytes "Content-Type") v
  | allow (methods : List Method) :
      OwnField env (bytes "Allow") (OptionsHandler.getMethodsStr methods)
  | cookie (role : Bytes) :
      OwnField env setCookie (jwtCookie (env.mint role))
  | number {name : Bytes} (n : Int) : name ∈ numberNames →
      OwnField env name (toStr n)

/-- A kind of response that all changes of the server respect. -/
structure HeadKind (env : Env) (I : Response → Prop) : Prop where
  fresh : ∀ status, I (Response.ofStatus status)
  setStatus : ∀ {r}, I r → ∀ status, I (r.setStatus status)
  addHeader : ∀ {r k v}, I r → OwnField env k v → I (r.addHeader k v)
  scriptLine : ∀ {r}, I r → ∀ data,
    I { r with
      statusMsg := extractHeaderLine data
      status := extractStatusCode data }
  setBody : ∀ {r}, I r → ∀ body, I { r with body := body }
  scriptHeaders : ∀ {r data hs}, I r → extractHeaders data = .ok hs →
    I (r.addHeaders hs)

/-- The response and all heads are of the kind. -/
structure Draft (I : Response → Prop) (s : Txn) : Prop where
  response : I s.response
  heads : ∀ r ∈ headsOf s.trace, I r

/-- And the response's line is the one that was sent last. -/
structure Posted (I : Response → Prop) (s : Txn) : Prop
    extends Draft I s where
  line : SameLine (lastHead s.trace) s.response

/-- Where a process stops: in a draft, and an exception is answered with
a response of the kind. -/
def StopsInDraft (I : Response → Prop) (stop : Stop) (s : Txn) : Prop :=
  Draft I s ∧ ∀ e, stop = .raised e → I (errorResponse e)

/-- What the steps that change no line have in common. -/
structure Lasting (env : Env) (I : Response → Prop) (P : Txn → Prop) :
    Prop where
  draft : ∀ s, P s → Draft I s
  silent : ∀ s e, e.head? = none → P s →
    P { s with trace := s.trace ++ [e] }
  addHeader : ∀ s k v, OwnField env k v → P s →
    P { s with response := s.response.addHeader k v }
  aside : ∀ s s' : Txn, s'.response = s.response → s'.trace = s.trace →
    P s → P s'

/-- A process that stays in a state of a kind, or stops in a draft. -/
abbrev Stays (I : Response → Prop) (P : Txn → Prop) {α : Type}
    (a : Act α) : Prop :=
  Proc.Contract P a (fun _ => P) (StopsInDraft I)

/-- A process that posts a draft, or stops in one. -/
abbrev Posts (I : Response → Prop) {α : Type} (a : Act α) : Prop :=
  Proc.Contract (Draft I) a (fun _ => Posted I) (StopsInDraft I)

section Kinds

variable {env : Env} {I : Response → Prop} (hI : HeadKind env I)

include hI

theorem lasting_draft : Lasting env I (Draft I) where
  draft := fun _ h => h
  silent := fun s _ he h =>
    ⟨h.response, (headsOf_snoc_other he s.trace).symm ▸ h.heads⟩
  addHeader := fun _ _ _ hown h => ⟨hI.addHeader h.response hown, h.heads⟩
  aside := fun _ _ hr ht h => ⟨hr ▸ h.response, ht ▸ h.heads⟩

theorem lasting_posted : Lasting env I (Posted I) where
  draft := fun _ h => h.toDraft
  silent := by
    intro s e he h
    have hsame := headsOf_snoc_other he s.trace
    refine ⟨(lasting_draft hI).silent s e he h.toDraft, ?_⟩
    show SameLine ((headsOf (s.trace ++ [e])).getLast?.getD {}) s.response
    rw [hsame]
    exact h.line
  addHeader := fun s k v hown h =>
    ⟨(lasting_draft hI).addHeader s k v hown h.toDraft, h.line⟩
  aside := fun s s' hr ht h =>
    ⟨(lasting_draft hI).aside s s' hr ht h.toDraft, by
      rw [hr, ht]
      exact h.line⟩

/-- A transaction starts posted. -/
theorem posted_start (router : Router) :
    Posted I { router := router } where
  response := hI.fresh .ok
  heads := fun _ h => absurd h List.not_mem_nil
  line := ⟨rfl, rfl⟩

/-- An exception without headers of its own is answered in kind. -/
theorem kind_unadorned {e : Exn} (he : Unadorned e) :
    I (errorResponse e) := by
  cases he with
  | std what => exact hI.fresh _
  | http status message =>
      have hlength : OwnField env (bytes "Content-Length") (bytes "0") :=
        .number 0 (by decide)
      exact hI.addHeader (hI.addHeader (hI.fresh status) .connection) hlength

/-- So is a limiter's refusal. -/
theorem kind_refusal (status : Code) (message : Bytes) (wait : Nat) :
    I (HTTPException.mk' status message ((∅ : Headers).insert
      (bytes "Retry-After") (toStr wait))).response := by
  have hlength : OwnField env (bytes "Content-Length") (bytes "0") :=
    .number 0 (by decide)
  have hwait : OwnField env (bytes "Retry-After") (toStr wait) :=
    .number wait (by decide)
  exact hI.addHeader (hI.addHeader (hI.addHeader (hI.fresh status) hwait)
    .connection) hlength

end Kinds

-- ================================================================== steps

section Steps

variable {env : Env} {I : Response → Prop} {P : Txn → Prop}

theorem stays_pure {α : Type} (x : α) : Stays I P (pure x : Act α) :=
  Proc.contract_pure fun _ h => h

/-- What posts a draft does so where things are posted already. -/
theorem Posts.stays {α : Type} {a : Act α} (h : Posts I a) :
    Stays I (Posted I) a :=
  h.strengthen fun _ hs => hs.toDraft

/-- A change of a draft. -/
theorem stays_modifyResponse {f : Response → Response}
    (hf : ∀ r, I r → I (f r)) : Stays I (Draft I) (modifyResponse f) :=
  Proc.contract_modify fun _ h => ⟨hf _ h.response, h.heads⟩

variable (hP : Lasting env I P)

include hP

theorem stops_halt {α : Type} {Q : α → Txn → Prop} {stop : Stop}
    (hstop : ∀ e, stop ≠ .raised e) :
    Proc.Contract P (Proc.raise stop : Act α) Q (StopsInDraft I) :=
  Proc.contract_raise fun s h =>
    ⟨hP.draft s h, fun e he => absurd he (hstop e)⟩

theorem stops_throwExn {α : Type} {Q : α → Txn → Prop} {e : Exn}
    (he : I (errorResponse e)) :
    Proc.Contract P (throwExn e : Act α) Q (StopsInDraft I) :=
  Proc.contract_raise fun s h =>
    ⟨hP.draft s h, fun _ h' => Stop.raised.inj h' ▸ he⟩

theorem stays_lift_bind {α β : Type} {r : Except Exn α} {f : α → Act β}
    {Q : β → Txn → Prop} (hr : ∀ e, r = .error e → I (errorResponse e))
    (hf : ∀ x, r = .ok x → Proc.Contract P (f x) Q (StopsInDraft I)) :
    Proc.Contract P (lift r >>= f) Q (StopsInDraft I) :=
  Proc.contract_ofExcept_bind hf fun e he s h =>
    ⟨hP.draft s h, fun _ h' => Stop.raised.inj h' ▸ hr e he⟩

theorem stays_derefPtr {α : Type} (p : Option α) :
    Stays I P (derefPtr p) := by
  cases p with
  | none => exact stops_halt hP fun _ h => by cases h
  | some x => exact stays_pure x

theorem stays_record {e : Event} (he : e.head? = none) :
    Stays I P (record e) :=
  Proc.contract_modify fun s h => hP.silent s e he h

theorem stays_addHeader {k v : Bytes} (hown : OwnField env k v) :
    Stays I P (modifyResponse (·.addHeader k v)) :=
  Proc.contract_modify fun s h => hP.addHeader s k v hown h

theorem stays_addHeaders {fields : List (Bytes × Bytes)}
    (hown : ∀ h ∈ fields, OwnField env h.1 h.2) :
    Stays I P (modifyResponse fun r =>
      fields.foldl (fun r h => r.addHeader h.1 h.2) r) := by
  refine Proc.contract_modify ?_
  induction fields with
  | nil => exact fun _ h => h
  | cons field rest ih =>
      intro s h
      exact ih (fun h' hh => hown h' (List.mem_cons_of_mem _ hh)) _
        (hP.addHeader s _ _ (hown field List.mem_cons_self) h)

end Steps

-- ================================================================= writes

/-- A head that is sent posts the draft it is made of. -/
theorem posted_of_head {I : Response → Prop} {s : Txn} (h : Draft I s)
    (accepted : Bytes) :
    Posted I (emit (.head s.response accepted) s) := by
  have hheads : headsOf (emit (.head s.response accepted) s).trace
      = headsOf s.trace ++ [s.response] := headsOf_snoc_head _ _ _
  refine ⟨⟨h.response, fun r hr => ?_⟩, ?_⟩
  · rw [hheads] at hr
    rcases List.mem_append.mp hr with hold | hnew
    · exact h.heads r hold
    · exact List.mem_singleton.mp hnew ▸ h.response
  · unfold lastHead
    rw [hheads, List.getLast?_concat]
    exact ⟨rfl, rfl⟩

section Walk

variable {env : Env} {I : Response → Prop} (hI : HeadKind env I)

include hI

theorem posts_sendHead : Posts I (sendHead env) := by
  intro s h
  have hbuilt : Draft I { s with response := built env s } :=
    ⟨hI.addHeader h.response (.date _), h.heads⟩
  have hsent : Posted I (afterHead env s) := posted_of_head hbuilt _
  rw [sendHead_apply]
  cases (headRun env s).result with
  | none => exact ⟨hsent.toDraft, fun e he => by cases he⟩
  | some result => exact hsent

theorem posts_streamHead : Posts I (streamHead env) := by
  refine Proc.contract_bind (posts_sendHead hI) fun result => ?_
  unfold requireSuccess
  split
  · exact stays_pure _
  · exact stops_throwExn (lasting_posted hI)
      (kind_unadorned hI (.http _ _))

theorem stays_openFileStreamer {P : Txn → Prop} (hP : Lasting env I P)
    {event : Bytes → Event} (he : ∀ p, (event p).head? = none)
    (path : Bytes) : Stays I P (openFileStreamer env event path) := by
  refine Proc.contract_read fun _ => ?_
  refine Proc.contract_bind (stays_record hP (he _)) fun _ => ?_
  refine stays_lift_bind hP (fun _ h =>
    kind_unadorned hI (unadorned_openFile h)) fun _ _ => ?_
  exact stays_pure _

theorem stays_streamFile {P : Txn → Prop} (hP : Lasting env I P)
    (path : Bytes) (file : File) (fileLen : Nat) :
    Stays I P (streamFile env path file fileLen) := by
  refine Proc.contract_read fun txn => ?_
  refine Proc.contract_bind (stays_record hP rfl) fun _ => ?_
  split
  · exact stays_pure _
  next e he =>
    exact stops_throwExn hP
      (kind_unadorned hI (unadorned_fileStreamLoop _ _ _ _ _ he))
  · exact stops_halt hP fun _ h => by cases h

-- =============================================================== handlers

/-- A relayed chunk changes the line and sends the head that tells it, or
throws. -/
theorem posts_relayChunk (data : Bytes) :
    Posts I (relayChunk env true data) := by
  have hdraft := lasting_draft hI
  refine Proc.contract_bind
    (stays_modifyResponse fun r hr => hI.scriptLine hr data) fun _ => ?_
  split
  · exact stops_throwExn hdraft (kind_unadorned hI (unadorned_ofStatus _ _))
  · refine stays_lift_bind hdraft (fun _ h =>
      kind_unadorned hI (plain_extractBody h).unadorned) fun body _ => ?_
    refine Proc.contract_bind
      (stays_modifyResponse fun r hr => hI.setBody hr body) fun _ => ?_
    refine stays_lift_bind hdraft (fun _ h =>
      kind_unadorned hI (plain_extractHeaders h).unadorned) fun hs heq => ?_
    refine Proc.contract_bind (stays_modifyResponse fun r hr =>
      hI.addHeader (hI.scriptHeaders hr heq) .connection) fun _ => ?_
    exact posts_streamHead hI

theorem stays_spawn (script args : Bytes) :
    Stays I (Posted I) (spawn env script args) := by
  have hposted := lasting_posted hI
  unfold spawn
  split
  · exact stays_record hposted rfl
  · refine Proc.contract_bind (stays_record hposted rfl) fun _ => ?_
    exact stops_throwExn hposted (kind_unadorned hI (.http _ _))
  · exact stops_throwExn hposted (kind_unadorned hI (.http _ _))

theorem stays_scriptLoop (script : Bytes) (reads : List ScriptRead) :
    Stays I (Posted I)
      (scriptLoop env script (some (relayChunk env true)) reads) := by
  have hposted := lasting_posted hI
  induction reads with
  | nil => exact stops_halt hposted fun _ h => by cases h
  | cons read rest ih =>
      cases read with
      | eof => exact stays_pure _
      | error =>
          exact stops_throwExn hposted (kind_unadorned hI (.http _ _))
      | chunk data =>
          exact Proc.contract_bind (posts_relayChunk hI data).stays
            fun _ => ih

theorem stays_streamScript (script args : Bytes) :
    Stays I (Posted I)
      (streamScript env script args (some (relayChunk env true))) :=
  Proc.contract_bind (stays_spawn hI script args) fun _ =>
    stays_scriptLoop hI script _

theorem posts_handleFile (route : EndpointMethod) :
    Posts I (GetHandler.handleFile env route) := by
  have hdraft := lasting_draft hI
  have hposted := lasting_posted hI
  refine Proc.contract_read fun _ => ?_
  dsimp only
  split
  · exact stops_throwExn hdraft (kind_unadorned hI (.http _ _))
  next c htype =>
    refine Proc.contract_bind (stays_modifyResponse fun r hr =>
      hI.addHeader (hI.addHeader (hI.setStatus hr .ok) .connection)
        (.contentType htype)) fun _ => ?_
    refine Proc.contract_bind (posts_streamHead hI) fun _ => ?_
    refine Proc.contract_bind
      (stays_openFileStreamer hI hposted (fun _ => rfl) _) fun _ => ?_
    refine Proc.contract_bind
      (stays_addHeader hposted (.number _ (by decide))) fun _ => ?_
    exact stays_streamFile hI hposted _ _ _

theorem stays_getHandler :
    Stays I (Posted I) (GetHandler.handle env) := by
  have hposted := lasting_posted hI
  refine Proc.contract_read fun _ => ?_
  split
  · refine Proc.contract_bind (stays_derefPtr hposted _) fun route => ?_
    split
    · refine Proc.contract_read fun _ => ?_
      refine Proc.contract_bind (stays_derefPtr hposted _) fun _ => ?_
      refine stays_lift_bind hposted (fun _ h =>
        kind_unadorned hI (plain_field h).unadorned) fun _ _ => ?_
      exact stays_streamScript hI _ _
    · exact (posts_handleFile hI route).stays
  · exact stops_throwExn hposted (kind_unadorned hI (.http _ _))

theorem stays_postHandler :
    Stays I (Posted I) (PostHandler.handle env) := by
  have hposted := lasting_posted hI
  refine Proc.contract_read fun _ => ?_
  split
  · refine Proc.contract_bind (stays_derefPtr hposted _) fun route => ?_
    split
    · exact stays_streamScript hI _ _
    · exact stops_throwExn hposted (kind_unadorned hI (.http _ _))
  · exact stops_throwExn hposted (kind_unadorned hI (.http _ _))

/-- `HeadHandler::buildResponse` drafts the head that is sent next. -/
theorem stays_buildResponse (route : EndpointMethod) :
    Stays I (Draft I) (HeadHandler.buildResponse env route) := by
  have hdraft := lasting_draft hI
  refine Proc.contract_read fun _ => ?_
  refine Proc.contract_bind (stays_record hdraft rfl) fun _ => ?_
  dsimp only
  split
  · exact stops_throwExn hdraft (kind_unadorned hI (.http _ _))
  · refine Proc.contract_bind (stays_derefPtr hdraft _) fun _ => ?_
    refine stays_lift_bind hdraft (fun _ h =>
      kind_unadorned hI (plain_field h).unadorned) fun _ _ => ?_
    split
    · exact stops_throwExn hdraft (kind_unadorned hI (.http _ _))
    next c htype =>
      exact stays_modifyResponse fun r hr =>
        hI.addHeader (hI.addHeader (hI.addHeader (hI.setStatus hr .ok)
          .connection) (.contentType htype))
          (.number _ (by decide))

theorem stays_headHandler :
    Stays I (Posted I) (HeadHandler.handle env) := by
  have hposted := lasting_posted hI
  refine Proc.contract_read fun _ => ?_
  split
  · refine Proc.contract_bind (stays_derefPtr hposted _) fun route => ?_
    split
    · exact stops_throwExn hposted (kind_unadorned hI (.http _ _))
    · exact Posts.stays (Proc.contract_bind
        (stays_buildResponse hI route) fun _ => posts_streamHead hI)
  · exact stops_throwExn hposted (kind_unadorned hI (.http _ _))

theorem stays_optionsHandler :
    Stays I (Posted I) (OptionsHandler.handle env) := by
  have hposted := lasting_posted hI
  refine Proc.contract_read fun start => ?_
  split
  · exact stops_throwExn hposted (kind_unadorned hI (unadorned_ofStatus _ _))
  · refine Proc.contract_bind (stays_derefPtr hposted _) fun ep => ?_
    have hlength : OwnField env (bytes "Content-Length") (bytes "0") :=
      .number 0 (by decide)
    refine Posts.stays ?_
    refine Proc.contract_bind (stays_modifyResponse fun r hr =>
      hI.addHeader (hI.addHeader (hI.addHeader hr (.allow _)) hlength)
        .connection) fun _ => ?_
    refine Proc.contract_bind (stays_modifyResponse fun r hr =>
      hI.addHeader hr (.date _)) fun _ => ?_
    refine Proc.contract_get_bind fun t ht => ?_
    -- The head recorded is that of the transaction read last.
    have hsent : ∀ accepted, Proc.Contract (fun s => s = t)
        (record (.head t.response accepted)) (fun _ => Posted I)
        (StopsInDraft I) := by
      intro accepted
      refine Proc.contract_modify ?_
      rintro s rfl
      exact posted_of_head ht accepted
    dsimp only
    split
    · exact Proc.contract_bind (hsent _) fun _ =>
        stops_halt hposted fun _ h => by cases h
    · exact hsent _

theorem stays_run (kind : HandlerKind) :
    Stays I (Posted I) (kind.run env) := by
  cases kind with
  | get => exact stays_getHandler hI
  | post => exact stays_postHandler hI
  | head => exact stays_headHandler hI
  | options => exact stays_optionsHandler hI

theorem kind_getHandler {ep : Endpoint} {m : Method} {e : Exn}
    (h : ep.getHandler m = .error e) : I (errorResponse e) := by
  apply kind_unadorned hI
  unfold Endpoint.getHandler at h
  split at h
  next =>
    split at h
    next =>
      cases h
      exact .http _ _
    next =>
      cases m with
      | notAllowed =>
          cases h
          exact unadorned_ofStatus _ _
      | _ => cases h
  next => cases h

theorem stays_finish : Stays I (Posted I) (finish env) := by
  have hposted := lasting_posted hI
  refine Proc.contract_read fun _ => ?_
  refine Proc.contract_bind (stays_derefPtr hposted _) fun _ => ?_
  refine stays_lift_bind hposted (fun _ => kind_getHandler hI)
    fun finisher _ => ?_
  cases finisher with
  | none => exact stays_pure _
  | some kind =>
      exact Proc.contract_bind (stays_record hposted rfl) fun _ =>
        stays_run hI kind

-- ============================================================ error pages

theorem posts_defaultErrorPage : Posts I (defaultErrorPage env) :=
  Proc.contract_bind (posts_sendHead hI) fun _ => stays_pure _

theorem posts_serveErrorPage (file : Bytes) :
    Posts I (serveErrorPage env file) := by
  have hdraft := lasting_draft hI
  refine Proc.contract_bind
    (stays_openFileStreamer hI hdraft (fun _ => rfl) _) fun _ => ?_
  refine Proc.contract_bind
    (stays_addHeader hdraft (.number _ (by decide))) fun _ => ?_
  refine Proc.contract_bind (posts_streamHead hI) fun _ => ?_
  exact stays_streamFile hI (lasting_posted hI) _ _ _

/-- The default page takes over from the draft the configured one has
stopped in. -/
theorem posts_errorPage (page : Option Bytes) :
    Posts I (errorPage env page) := by
  cases page with
  | none => exact posts_defaultErrorPage hI
  | some file =>
      refine Proc.contract_recover (posts_serveErrorPage hI file)
        (fun stop h hstop => ?_) fun _ _ _ h => h
      cases stop with
      | raised e =>
          cases hstop
          exact (posts_defaultErrorPage hI).strengthen fun _ h => h.1
      | pending => cases hstop
      | crash => cases hstop

theorem posts_answerError (e : Exn) :
    Proc.Contract (StopsInDraft I (.raised e)) (answerError env e)
      (fun _ => Posted I) (StopsInDraft I) := by
  have hanswer : Proc.Contract (StopsInDraft I (.raised e))
      (modifyResponse fun _ => errorResponse e) (fun _ => Draft I)
      (StopsInDraft I) :=
    Proc.contract_modify fun _ h => ⟨h.2 e rfl, h.1.heads⟩
  refine Proc.contract_bind hanswer fun _ => ?_
  exact Proc.contract_read fun _ => posts_errorPage hI _

-- =============================================================== pipeline

theorem stays_errorHandler {next : Act Unit}
    (hnext : Stays I (Posted I) next) :
    Stays I (Posted I) (errorHandlerProcess env next) := by
  refine Proc.contract_recover (Proc.contract_bind hnext fun _ =>
    stays_finish hI) (fun stop h hstop => ?_) fun _ _ _ h => h
  cases stop with
  | raised e =>
      cases hstop
      exact posts_answerError hI e
  | pending => cases hstop
  | crash => cases hstop

theorem stays_limiter (view : LimitView) (l : Limiter) {next : Act Unit}
    (hnext : Stays I (Posted I) next) :
    Stays I (Posted I) (l.process env view next) := by
  have hposted := lasting_posted hI
  cases l with
  | fixedWindow fw =>
      refine Proc.contract_read fun _ => ?_
      refine stays_lift_bind hposted (fun _ h =>
        kind_unadorned hI (unadorned_makeKey h)) fun _ _ => ?_
      split
      · exact stops_halt hposted fun _ h => by cases h
      · dsimp only
        split
        · exact stops_throwExn hposted (kind_refusal hI _ _ _)
        · exact stops_halt hposted fun _ h => by cases h
        -- The fields added are numbers under fixed names.
        · refine Proc.contract_bind (stays_addHeaders hposted ?_)
            fun _ => hnext
          simp only [FixedWindow.admittedHeaders, List.forall_mem_cons]
          exact ⟨.number _ (by decide), .number _ (by decide),
            .number _ (by decide), fun _ h => absurd h List.not_mem_nil⟩
  | tokenBucket tb =>
      refine Proc.contract_read fun _ => ?_
      refine stays_lift_bind hposted (fun _ h =>
        kind_unadorned hI (unadorned_makeKey h)) fun _ _ => ?_
      dsimp only
      split
      · exact stops_throwExn hposted (kind_refusal hI _ _ _)
      · exact stops_halt hposted fun _ h => by cases h
      · refine Proc.contract_bind (stays_addHeaders hposted ?_)
          fun _ => hnext
        simp only [TokenBucket.admittedHeaders, List.forall_mem_cons]
        exact ⟨.number _ (by decide), .number _ (by decide),
          .number _ (by decide), .number _ (by decide),
          fun _ h => absurd h List.not_mem_nil⟩

theorem stays_getEndpoint (url : Bytes) :
    Stays I (Posted I) (getEndpointAct env url) := by
  have hposted := lasting_posted hI
  refine Proc.contract_read fun _ => ?_
  refine stays_lift_bind hposted (fun _ h =>
    kind_unadorned hI (plain_getEndpoint h).unadorned) fun found _ => ?_
  have hrouter : Stays I (Posted I)
      (Proc.modify fun txn => { txn with router := found.2 }) :=
    Proc.contract_modify fun s h => hposted.aside s _ rfl rfl h
  exact Proc.contract_bind hrouter fun _ => stays_pure _

theorem stays_getEndpointMethod (url : Bytes) (m : Method) :
    Stays I (Posted I) (getEndpointMethodAct env url m) := by
  have hposted := lasting_posted hI
  refine Proc.contract_bind (stays_getEndpoint hI url) fun _ => ?_
  refine Proc.contract_read fun _ => ?_
  refine Proc.contract_bind (stays_derefPtr hposted _) fun _ => ?_
  refine stays_lift_bind hposted (fun _ h =>
    kind_unadorned hI (plain_field h).unadorned) fun _ _ => ?_
  exact stays_pure _

theorem stays_parserProcess {next : Act Unit} (hnext : Stays I (Posted I) next) :
    Stays I (Posted I) (parserProcess env next) := by
  have hposted := lasting_posted hI
  unfold parserProcess
  split
  · apply stops_throwExn hposted
    unfold readFailed
    dsimp only
    split
    · exact kind_unadorned hI (.http _ _)
    · exact kind_unadorned hI (.http _ _)
  · refine stays_lift_bind hposted (fun _ h =>
      kind_unadorned hI (unadorned_extractEndpoint h)) fun _ _ => ?_
    refine Proc.contract_bind (stays_getEndpoint hI _) fun _ => ?_
    refine stays_lift_bind hposted (fun _ h =>
      kind_unadorned hI (plain_extractMethod h).unadorned) fun _ _ => ?_
    refine Proc.contract_read fun _ => ?_
    refine Proc.contract_bind (stays_derefPtr hposted _) fun _ => ?_
    refine stays_lift_bind hposted (fun _ h =>
      kind_unadorned hI (plain_field h).unadorned) fun _ _ => ?_
    refine stays_lift_bind hposted (fun _ h =>
      kind_unadorned hI (unadorned_extractArgs h)) fun _ _ => ?_
    refine stays_lift_bind hposted (fun _ h =>
      kind_unadorned hI (plain_extractHeaders h).unadorned) fun _ _ => ?_
    refine stays_lift_bind hposted (fun _ h =>
      kind_unadorned hI (plain_extractBody h).unadorned) fun _ _ => ?_
    refine stays_lift_bind hposted (fun _ h =>
      kind_unadorned hI (unadorned_extractQueryString h)) fun _ _ => ?_
    refine Proc.contract_bind (stays_getEndpointMethod hI _ _)
      fun _ => ?_
    -- Storing the request leaves the response as it is.
    have hstore : ∀ request, Stays I (Posted I)
        (Proc.modify fun txn => { txn with request := request }) :=
      fun _ => Proc.contract_modify fun s h => hposted.aside s _ rfl rfl h
    exact Proc.contract_bind (hstore _) fun _ => hnext

theorem stays_rateLimiter {next : Act Unit}
    (hnext : Stays I (Posted I) next) :
    Stays I (Posted I) (rateLimiterProcess env next) := by
  refine Proc.contract_read fun _ => ?_
  refine Proc.contract_bind (stays_derefPtr (lasting_posted hI) _)
    fun _ => ?_
  split
  · exact stays_limiter hI _ _ hnext
  · exact hnext

theorem stays_mintToken : Stays I (Posted I) (mintToken env) := by
  have hposted := lasting_posted hI
  refine Proc.contract_read fun _ => ?_
  split
  · exact stops_throwExn hposted (kind_unadorned hI (.http _ _))
  · refine Proc.contract_bind (stays_derefPtr hposted _) fun _ => ?_
    refine stays_lift_bind hposted (fun _ h =>
      kind_unadorned hI (plain_field h).unadorned) fun role _ => ?_
    refine Proc.contract_bind (stays_record hposted rfl) fun _ => ?_
    exact stays_addHeader hposted (.cookie role)

theorem stays_authenticator {next : Act Unit}
    (hnext : Stays I (Posted I) next) :
    Stays I (Posted I) (authenticatorProcess env next) := by
  have hposted := lasting_posted hI
  refine Proc.contract_read fun _ => ?_
  refine Proc.contract_bind (stays_derefPtr hposted _) fun _ => ?_
  refine stays_lift_bind hposted (fun _ h =>
    kind_unadorned hI (unadorned_validate h)) fun _ _ => ?_
  refine Proc.contract_bind hnext fun _ => ?_
  split
  · exact stays_mintToken hI
  · exact stays_pure _

/-- Whatever its components and their order, a pipeline ends posted or
stops in a draft. -/
theorem stays_runPipeline (pipeline : List Component) :
    Stays I (Posted I) (runPipeline env pipeline) := by
  induction pipeline with
  | nil => exact stays_pure _
  | cons c rest ih =>
      cases c with
      | logger => exact ih
      | errorHandler => exact stays_errorHandler hI ih
      | parser => exact stays_parserProcess hI ih
      | limiter l => exact stays_limiter hI _ l ih
      | rateLimiter => exact stays_rateLimiter hI ih
      | authenticator => exact stays_authenticator hI ih

/-- However a session ends, its response and its heads are of the kind. -/
theorem draft_transact (pipeline : List Component) (router : Router) :
    Draft I (transact env pipeline router) := by
  refine Proc.Contract.ended ((stays_runPipeline hI pipeline).weaken
    (fun _ h => h) (fun _ _ h => h.toDraft) fun _ _ h => h.1)
    (posted_start hI router)

end Walk

end CgiWebServer
