/-
What a stretch of a transaction leaves alone.

`Emits P` is the frame of everything that runs behind the gate: request
and router stay, and the events it adds are all of a kind `P`. It is
reflexive and transitive, so a handler's frame is put together from
those of its steps by the rules of `Process.Proc.Within`, together with
the form of the exceptions it can throw.
-/
import CgiWebServer.Proofs.Exceptions

namespace CgiWebServer

open Process

-- ============================================================= relations

/-- Request and router stay, and the events added are of the kind. -/
def Emits (P : Event → Prop) (s s' : Txn) : Prop :=
  s'.request = s.request ∧ s'.router = s.router
    ∧ ∃ events, s'.trace = s.trace ++ events ∧ ∀ e ∈ events, P e

section Rules

variable {P : Event → Prop}

theorem Emits.refl (s : Txn) : Emits P s s :=
  ⟨rfl, rfl, [], (List.append_nil _).symm, by simp⟩

theorem Emits.trans (s t u : Txn) (h : Emits P s t) (h' : Emits P t u) :
    Emits P s u := by
  obtain ⟨hreq, hrouter, ev, htrace, hall⟩ := h
  obtain ⟨hreq', hrouter', ev', htrace', hall'⟩ := h'
  refine ⟨hreq'.trans hreq, hrouter'.trans hrouter, ev ++ ev', ?_, ?_⟩
  · rw [htrace', htrace, List.append_assoc]
  · intro e he
    cases List.mem_append.mp he with
    | inl hmem => exact hall e hmem
    | inr hmem => exact hall' e hmem

/-- A reason to stop that is no exception of another form than
`Thrown`. -/
def ThrownStop (stop : Stop) : Prop := ∀ e, stop = .raised e → Thrown e

/-- The frame of a process: however it ends, it emits events of the kind
only, and it throws the server's exceptions only. -/
abbrev Only {α : Type} (P : Event → Prop) (a : Act α) : Prop :=
  Proc.Within (Emits P) ThrownStop a

theorem only_bind {α β : Type} {a : Act α} {f : α → Act β}
    (ha : Only P a) (hf : ∀ x, Only P (f x)) : Only P (a >>= f) :=
  Proc.within_bind Emits.trans ha hf

theorem only_pure {α : Type} (x : α) : Only P (pure x : Act α) :=
  Proc.within_pure Emits.refl x

theorem only_get : Only P (Proc.get : Act Txn) :=
  Proc.within_get Emits.refl

theorem thrownStop_raised {e : Exn} (he : Thrown e) :
    ThrownStop (.raised e) :=
  fun _ h => Stop.raised.inj h ▸ he

theorem only_pending {α : Type} :
    Only P (Proc.raise .pending : Act α) :=
  Proc.within_raise Emits.refl fun _ h => by cases h

theorem only_throwExn {α : Type} {e : Exn} (he : Thrown e) :
    Only P (throwExn e : Act α) :=
  Proc.within_raise Emits.refl (thrownStop_raised he)

theorem only_lift {α : Type} {r : Except Exn α}
    (hr : ∀ e, r = .error e → Thrown e) : Only P (lift r) :=
  Proc.within_ofExcept Emits.refl fun e he =>
    thrownStop_raised (hr e he)

theorem only_derefPtr {α : Type} (p : Option α) : Only P (derefPtr p) := by
  cases p with
  | none => exact Proc.within_raise Emits.refl fun _ h => by cases h
  | some x => exact only_pure x

theorem only_modifyResponse (f : Response → Response) :
    Only P (modifyResponse f) :=
  Proc.within_modify fun _ =>
    ⟨rfl, rfl, [], (List.append_nil _).symm, by simp⟩

theorem only_record {e : Event} (he : P e) : Only P (record e) :=
  Proc.within_modify fun _ => ⟨rfl, rfl, [e], rfl, by simpa using he⟩

-- ================================================================ writes

variable (env : Env)

theorem only_coWrite {event : Bytes → Event} (he : ∀ b, P (event b))
    (buffer : Bytes) : Only P (coWrite env buffer event) := by
  refine only_bind only_get fun txn => ?_
  refine only_bind (only_record (he _)) fun _ => ?_
  split
  · exact only_pending
  · exact only_pure _

theorem only_sendHead (hhead : ∀ r b, P (.head r b)) :
    Only P (sendHead env) := by
  refine only_bind only_get fun _ => ?_
  refine only_bind (only_modifyResponse _) fun _ => ?_
  exact only_bind only_get fun txn => only_coWrite env (hhead _) _

theorem only_streamHead (hhead : ∀ r b, P (.head r b)) :
    Only P (streamHead env) := by
  refine only_bind (only_sendHead env hhead) fun result => ?_
  unfold requireSuccess
  split
  · exact only_pure _
  · exact only_throwExn (thrown_plain _ _)

theorem only_openFileStreamer {event : Bytes → Event} {path : Bytes}
    (he : P (event (cStr path))) :
    Only P (openFileStreamer env event path) := by
  refine only_bind only_get fun _ => ?_
  refine only_bind (only_record he) fun _ => ?_
  refine only_bind (only_lift fun _ h => (unadorned_openFile h).thrown) fun _ => ?_
  exact only_pure _

theorem only_streamFile (hbody : ∀ b, P (.body b)) (path : Bytes)
    (file : File) (fileLen : Nat) :
    Only P (streamFile env path file fileLen) := by
  refine only_bind only_get fun _ => ?_
  refine only_bind (only_record (hbody _)) fun _ => ?_
  split
  · exact only_pure _
  next e he =>
    exact only_throwExn (unadorned_fileStreamLoop _ _ _ _ _ he).thrown
  · exact only_pending

-- ============================================================== handlers

theorem only_relayChunk (hhead : ∀ r b, P (.head r b)) (first : Bool)
    (data : Bytes) : Only P (relayChunk env first data) := by
  unfold relayChunk
  split
  · exact only_pure _
  · refine only_bind (only_modifyResponse _) fun _ => ?_
    split
    · exact only_throwExn (thrown_ofStatus _ _)
    · refine only_bind (only_lift fun _ h => (plain_extractBody h).thrown) fun _ => ?_
      refine only_bind (only_modifyResponse _) fun _ => ?_
      refine only_bind (only_lift fun _ h => (plain_extractHeaders h).thrown)
        fun _ => ?_
      refine only_bind (only_modifyResponse _) fun _ => ?_
      exact only_streamHead env hhead

theorem only_scriptLoop (hhead : ∀ r b, P (.head r b)) (script : Bytes)
    (first : Bool) (reads : List ScriptRead) :
    Only P (scriptLoop env script (some (relayChunk env first)) reads) := by
  induction reads with
  | nil => exact only_pending
  | cons read rest ih =>
      cases read with
      | eof => exact only_pure _
      | error => exact only_throwExn (thrown_plain _ _)
      | chunk data =>
          exact only_bind (only_relayChunk env hhead first data) fun _ => ih

theorem only_spawn {script args : Bytes}
    (hspawn : P (.spawned (cStr script) args)) :
    Only P (spawn env script args) := by
  unfold spawn
  split
  · exact only_record hspawn
  · refine only_bind (only_record hspawn) fun _ => ?_
    exact only_throwExn (thrown_plain _ _)
  · exact only_throwExn (thrown_plain _ _)

theorem only_streamScript (hhead : ∀ r b, P (.head r b))
    {script args : Bytes} (hspawn : P (.spawned (cStr script) args))
    (first : Bool) :
    Only P (streamScript env script args (some (relayChunk env first))) :=
  only_bind (only_spawn env hspawn) fun _ =>
    only_scriptLoop env hhead script first _

theorem only_handleFile (hhead : ∀ r b, P (.head r b))
    (hbody : ∀ b, P (.body b)) {route : EndpointMethod}
    (hopen : P (.opened (cStr route.resource))) :
    Only P (GetHandler.handleFile env route) := by
  refine only_bind only_get fun _ => ?_
  dsimp only
  split
  · exact only_throwExn (thrown_plain _ _)
  · refine only_bind (only_modifyResponse _) fun _ => ?_
    refine only_bind (only_streamHead env hhead) fun _ => ?_
    refine only_bind (only_openFileStreamer env hopen) fun _ => ?_
    refine only_bind (only_modifyResponse _) fun _ => ?_
    exact only_streamFile env hbody _ _ _

theorem only_buildResponse {route : EndpointMethod}
    (hopen : P (.opened (cStr route.resource))) :
    Only P (HeadHandler.buildResponse env route) := by
  refine only_bind only_get fun _ => ?_
  refine only_bind (only_record hopen) fun _ => ?_
  dsimp only
  split
  · exact only_throwExn (thrown_plain _ _)
  · refine only_bind (only_derefPtr _) fun _ => ?_
    refine only_bind (only_lift fun _ h => (plain_field h).thrown) fun _ => ?_
    split
    · exact only_throwExn (thrown_plain _ _)
    · exact only_modifyResponse _

theorem only_options (hhead : ∀ r b, P (.head r b)) :
    Only P (OptionsHandler.handle env) := by
  refine only_bind only_get fun _ => ?_
  split
  · exact only_throwExn (thrown_ofStatus _ _)
  · refine only_bind (only_derefPtr _) fun _ => ?_
    refine only_bind (only_modifyResponse _) fun _ => ?_
    refine only_bind (only_modifyResponse _) fun _ => ?_
    refine only_bind only_get fun _ => ?_
    split
    · exact only_bind (only_record (hhead _ _)) fun _ => only_pending
    · exact only_record (hhead _ _)

-- =========================================================== error pages

theorem only_defaultErrorPage (hhead : ∀ r b, P (.head r b)) :
    Only P (defaultErrorPage env) :=
  only_bind (only_sendHead env hhead) fun _ => only_pure _

theorem only_errorPage (hhead : ∀ r b, P (.head r b))
    (hbody : ∀ b, P (.body b)) (hopen : ∀ p, P (.openedPage p))
    (page : Option Bytes) : Only P (errorPage env page) := by
  cases page with
  | none => exact only_defaultErrorPage env hhead
  | some file =>
      refine Proc.within_recover Emits.trans ?_ fun stop h _ hstop => ?_
      · refine only_bind (only_openFileStreamer env (hopen _)) fun _ => ?_
        refine only_bind (only_modifyResponse _) fun _ => ?_
        refine only_bind (only_streamHead env hhead) fun _ => ?_
        exact only_streamFile env hbody _ _ _
      · cases stop with
        | raised e =>
            cases hstop
            exact only_defaultErrorPage env hhead
        | pending => cases hstop
        | crash => cases hstop

theorem only_answerError (hhead : ∀ r b, P (.head r b))
    (hbody : ∀ b, P (.body b)) (hopen : ∀ p, P (.openedPage p))
    (e : Exn) : Only P (answerError env e) := by
  refine only_bind (only_modifyResponse _) fun _ => ?_
  exact only_bind only_get fun _ => only_errorPage env hhead hbody hopen _

end Rules

end CgiWebServer
