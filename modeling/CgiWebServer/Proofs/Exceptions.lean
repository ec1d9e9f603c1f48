/-
The exceptions the server can throw.

All of them are made by `HTTPException`'s constructors from a status, a
message and at most a `Retry-After` header, or are standard exceptions
without a response. `Thrown` is that form, and the response an exception
of it is answered with sets no cookie (`thrown_no_cookie`). What an
extractor or a lookup throws has one status and no header (`Plain`); only
the limiters' refusals have headers of their own, all others are `Unadorned`.
-/
import CgiWebServer.Pipeline

namespace CgiWebServer

/-- The headers an exception is thrown with: none, or `Retry-After`. -/
def ThrownHeaders (headers : Headers) : Prop :=
  headers = ∅
    ∨ ∃ wait, headers = (∅ : Headers).insert (bytes "Retry-After") wait

/-- The form of every exception. -/
inductive Thrown : Exn → Prop
  | http (status : Code) (message : Bytes) {headers : Headers} :
      ThrownHeaders headers → Thrown (.http (.mk' status message headers))
  | std (what : Bytes) : Thrown (.std what)

/-- An exception without headers of its own. -/
theorem thrown_plain (status : Code) (message : Bytes) :
    Thrown (.http (.mk' status message ∅)) :=
  .http status message (Or.inl rfl)

theorem thrown_ofStatus (status : Code) (message : String) :
    Thrown (.ofStatus status message) := thrown_plain _ _

/-- An exception of a status, and without headers of its own. -/
def Plain (status : Code) (e : Exn) : Prop :=
  ∃ message, e = .http (.mk' status message ∅)

theorem plain_ofStatus (status : Code) (message : String) :
    Plain status (.ofStatus status message) := ⟨bytes message, rfl⟩

theorem Plain.thrown {status : Code} {e : Exn} (h : Plain status e) :
    Thrown e := by
  obtain ⟨message, rfl⟩ := h
  apply thrown_plain

/-- An exception of any status without headers of its own, or a standard
one. -/
inductive Unadorned : Exn → Prop
  | http (status : Code) (message : Bytes) :
      Unadorned (.http (.mk' status message ∅))
  | std (what : Bytes) : Unadorned (.std what)

theorem unadorned_ofStatus (status : Code) (message : String) :
    Unadorned (.ofStatus status message) := .http status (bytes message)

theorem Plain.unadorned {status : Code} {e : Exn} (h : Plain status e) :
    Unadorned e := by
  obtain ⟨message, rfl⟩ := h
  exact .http status message

theorem Unadorned.thrown {e : Exn} (h : Unadorned e) : Thrown e := by
  cases h with
  | http status message => exact thrown_plain status message
  | std what => exact .std what

-- ============================================================== cookies

/-- The keys of merged headers are those of the two maps. -/
theorem mem_addHeaders {r : Response} {hs : Headers} {k : Bytes}
    (h : k ∈ (r.addHeaders hs).headers) : k ∈ r.headers ∨ k ∈ hs := by
  have hlookup := Response.lookup_addHeaders r hs k
  cases hown : hs.lookup k with
  | none =>
      rw [hown, Option.none_or] at hlookup
      left
      rw [← AList.lookup_isSome, ← hlookup]
      exact AList.lookup_isSome.mpr h
  | some v => exact Or.inr (AList.lookup_isSome.mp (by rw [hown]; rfl))

/-- The response an exception is answered with sets no cookie. -/
theorem thrown_no_cookie {e : Exn} (h : Thrown e) :
    setCookie ∉ (errorResponse e).headers := by
  intro hmem
  cases h with
  | std what => exact AList.notMem_empty _ hmem
  | @http status message headers hheaders =>
      simp only [errorResponse, HTTPException.mk', Response.addHeader,
        AList.mem_insert] at hmem
      rcases hmem with hlen | hconn | hmem
      · exact absurd hlen (by decide)
      · exact absurd hconn (by decide)
      · rcases mem_addHeaders hmem with hempty | hown
        · exact AList.notMem_empty _ hempty
        · rcases hheaders with rfl | ⟨wait, rfl⟩
          · exact AList.notMem_empty _ hown
          · rcases (AList.mem_insert _).mp hown with hretry | hempty
            · exact absurd hretry (by decide)
            · exact AList.notMem_empty _ hempty

-- ============================================================ extractors

theorem plain_getRequestTarget {buffer : Bytes} {e : Exn}
    (h : getRequestTarget buffer = .error e) : Plain .badRequest e := by
  unfold getRequestTarget at h
  split at h
  next =>
    cases h
    apply plain_ofStatus
  next =>
    split at h
    next =>
      cases h
      apply plain_ofStatus
    next => cases h

theorem unadorned_extractEndpoint {buffer : Bytes} {e : Exn}
    (h : extractEndpoint buffer = .error e) : Unadorned e := by
  cases htarget : getRequestTarget buffer with
  | error e' =>
      unfold extractEndpoint at h
      rw [htarget] at h
      cases h
      exact (plain_getRequestTarget htarget).unadorned
  | ok target =>
      rw [extractEndpoint_of_target htarget] at h
      cases h

theorem unadorned_extractQueryString {buffer : Bytes} {e : Exn}
    (h : extractQueryString buffer = .error e) : Unadorned e := by
  cases htarget : getRequestTarget buffer with
  | error e' =>
      unfold extractQueryString at h
      rw [htarget] at h
      cases h
      exact (plain_getRequestTarget htarget).unadorned
  | ok target =>
      rw [extractQueryString_of_target htarget] at h
      cases h

theorem plain_extractMethod {buffer : Bytes} {e : Exn}
    (h : extractMethod buffer = .error e) : Plain .badRequest e := by
  unfold extractMethod at h
  split at h
  next =>
    cases h
    apply plain_ofStatus
  next =>
    dsimp only at h
    split at h
    next =>
      cases h
      apply plain_ofStatus
    next => cases h

theorem plain_extractBody {buffer : Bytes} {e : Exn}
    (h : extractBody buffer = .error e) : Plain .badRequest e := by
  unfold extractBody at h
  split at h
  next =>
    cases h
    apply plain_ofStatus
  next => cases h

theorem plain_extractHeadersLoop {request : Bytes} {headersEnd : Nat}
    {e : Exn} :
    ∀ (fuel pos : Nat) (headers : Headers),
      extractHeadersLoop request headersEnd fuel pos headers = .error e →
      Plain .badRequest e := by
  intro fuel
  induction fuel with
  | zero =>
      intro pos headers h
      cases h
  | succ fuel ih =>
      intro pos headers h
      unfold extractHeadersLoop at h
      split at h
      next => cases h
      next =>
        split at h
        next =>
          cases h
          apply plain_ofStatus
        next =>
          dsimp only at h
          split at h
          next => cases h
          next =>
            split at h
            next =>
              cases h
              apply plain_ofStatus
            next => exact ih _ _ h

theorem plain_extractHeaders {buffer : Bytes} {e : Exn}
    (h : extractHeaders buffer = .error e) : Plain .badRequest e := by
  unfold extractHeaders at h
  split at h
  next =>
    cases h
    apply plain_ofStatus
  next =>
    split at h
    next =>
      cases h
      apply plain_ofStatus
    next => exact plain_extractHeadersLoop _ _ _ h

/-- A sequence of two results throws what one of them throws. -/
theorem unadorned_bind {α β : Type} {r : Except Exn α}
    {f : α → Except Exn β} {e : Exn} (h : (r >>= f) = .error e)
    (hr : ∀ e, r = .error e → Unadorned e)
    (hf : ∀ x e, f x = .error e → Unadorned e) : Unadorned e := by
  cases r with
  | error e' =>
      cases h
      exact hr e rfl
  | ok x => exact hf x e h

theorem unadorned_isValidJson {json : Bytes → JsonResult} {body : Bytes}
    {e : Exn} (h : isValidJson json body = .error e) : Unadorned e := by
  unfold isValidJson at h
  split at h
  next => cases h
  next => cases h
  next =>
    cases h
    exact .std _

theorem unadorned_getArgs {buffer desired : Bytes}
    {filter : Bytes → Except Exn Bool} {e : Exn}
    (hfilter : ∀ b e, filter b = .error e → Unadorned e)
    (h : getArgs buffer desired filter = .error e) : Unadorned e := by
  refine unadorned_bind h (fun _ h =>
    (plain_extractBody h).unadorned) fun body e h => ?_
  split at h
  next =>
    cases h
    exact .http _ _
  next =>
    split at h
    next =>
      cases h
      exact .http _ _
    next =>
      refine unadorned_bind h (hfilter body) fun valid e h => ?_
      cases valid with
      | true => cases h
      | false =>
          cases h
          exact .http _ _

theorem unadorned_bodyAny {json : Bytes → JsonResult} {buffer : Bytes}
    {e : Exn} (h : bodyAny json buffer = .error e) : Unadorned e := by
  refine unadorned_bind h (fun _ h =>
    (plain_extractBody h).unadorned) fun body e h => ?_
  split at h
  next => cases h
  next contentType =>
    refine unadorned_bind h (fun e he => ?_) fun okJson e h => ?_
    · split at he
      next => exact unadorned_isValidJson he
      next => cases he
    · cases okJson with
      | true => cases h
      | false =>
          simp only [Bool.false_eq_true, if_false] at h
          split at h
          next => cases h
          next =>
            split at h
            next =>
              cases h
              exact .http _ _
            next => cases h

theorem unadorned_extractArgs {json : Bytes → JsonResult} {buffer : Bytes}
    {argType : ArgType} {e : Exn}
    (h : extractArgs json buffer argType = .error e) : Unadorned e := by
  cases argType with
  | none => cases h
  | any =>
      refine unadorned_bind h (fun _ => unadorned_extractQueryString)
        fun result e h => ?_
      split at h
      next => exact unadorned_bodyAny h
      next => cases h
  | bodyAny => exact unadorned_bodyAny h
  | bodyJson => exact unadorned_getArgs (fun _ _ => unadorned_isValidJson) h
  | bodyUrl => exact unadorned_getArgs (fun _ _ he => by cases he) h
  | queryString => exact unadorned_extractQueryString h

-- ======================================================= table and tokens

theorem plain_field {α : Type} {what : String} {get : EndpointMethod → α}
    {ep : Endpoint} {m : Method} {e : Exn}
    (h : Endpoint.field what get ep m = .error e) : Plain .methodNotAllowed e := by
  unfold Endpoint.field at h
  split at h
  next =>
    cases h
    exact ⟨_, rfl⟩
  next => cases h

theorem plain_getEndpoint {fileExists : Bytes → Bool} {r : Router}
    {url : Bytes} {e : Exn}
    (h : r.getEndpoint fileExists url = .error e) : Plain .notFound e := by
  unfold Router.getEndpoint at h
  split at h
  next => cases h
  next =>
    split at h
    next =>
      cases h
      exact ⟨_, rfl⟩
    next => cases h

theorem unadorned_keyOr {value ip message : Bytes} {use : Bytes → Bytes}
    {ipFallback : Bool} {e : Exn}
    (h : keyOr value use ipFallback ip message = .error e) : Unadorned e := by
  unfold keyOr at h
  split at h
  next => cases h
  next =>
    split at h
    next =>
      cases h
      exact .http _ _
    next => cases h

theorem unadorned_makeKey {ip : Bytes} {request : Request} {key : KeyFunc}
    {e : Exn} (h : key.makeKey ip request = .error e) : Unadorned e := by
  cases key with
  | ip => cases h
  | header name ipFallback => exact unadorned_keyOr h
  | xff ipFallback => exact unadorned_keyOr h
  | query ipFallback => exact unadorned_keyOr h

theorem unadorned_openFile {path : Bytes} {file : File} {e : Exn}
    (h : openFile path file = .error e) : Unadorned e := by
  unfold openFile at h
  split at h
  next =>
    cases h
    exact .http _ _
  next =>
    split at h
    next =>
      cases h
      exact .http _ _
    next => cases h

theorem unadorned_fileStreamLoop {path : Bytes} {file : File} {fileLen : Nat}
    {socket : Nat → List WriteAnswer} {e : Exn} :
    ∀ (reads : List ReadAnswer) (offset sent call : Nat) (accepted : Bytes),
      (fileStreamLoop path file fileLen socket reads offset sent call
        accepted).result = .threw e → Unadorned e := by
  intro reads
  induction reads with
  | nil =>
      intro offset sent call accepted h
      unfold fileStreamLoop at h
      split at h <;> cases h
  | cons r rest ih =>
      intro offset sent call accepted h
      unfold fileStreamLoop at h
      split at h
      -- Two throws only: a read that fails, and a chunk the socket has not
      -- taken.
      next =>
        dsimp only at h
        split at h
        next =>
          cases h
          exact .http _ _
        next => cases h
        next =>
          split at h
          next => cases h
          next =>
            split at h
            next => exact ih _ _ _ _ h
            next =>
              cases h
              exact .http _ _
      next => cases h

theorem unadorned_validate {env : Env} {request : Request}
    {entry : EndpointMethod} {e : Exn}
    (h : validate env request entry = .error e) : Unadorned e := by
  unfold validate at h
  split at h
  next => cases h
  -- One check behind the other; each throws a bare status and message.
  next =>
    dsimp only at h
    split at h
    next =>
      cases h
      exact unadorned_ofStatus _ _
    next =>
      unfold validateToken at h
      split at h
      next =>
        cases h
        exact .http _ _
      next =>
        split at h
        next =>
          cases h
          exact .http _ _
        next =>
          split at h
          next =>
            cases h
            exact .http _ _
          next =>
            split at h
            next =>
              cases h
              exact .http _ _
            next =>
              split at h
              next => cases h
              next =>
                cases h
                exact .http _ _

end CgiWebServer
