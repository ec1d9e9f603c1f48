/-
The requests a session submits to the global limiter.

`Component.submit` is a component beside a list of requests: the limiter
notes the transaction's request there when its `process` is called, and
nothing else touches the list. What the list is beside is the pipeline
itself (`submit_erases`), so its length is the number of times the
limiter was asked.
-/
import CgiWebServer.Lib.Shadow
import CgiWebServer.Proofs.GlobalLimiter
import CgiWebServer.Proofs.LimiterSteps

namespace CgiWebServer

open Process Process.Proc

-- ============================================================ the noted runs

/-- A process over a transaction and the requests it has submitted. -/
abbrev Noted := Proc (Txn × List Request) Stop

/-- The limiter is called with the request as it is now. -/
def noteRequest : Noted Unit :=
  fun s => (.ok (), s.1, s.2 ++ [s.1.request])

/-- What `Authenticator::process` does in front of `next`. -/
def authorizeRoute (env : Env) : Act EndpointMethod := do
  let txn ← Proc.get
  let route ← derefPtr (txn.request.route.bind txn.router.derefRoute)
  lift (validate env txn.request route)
  pure route

/-- A component's `process`, with the calls of the global limiter
noted. -/
def Component.submit (env : Env) : Component → Noted Unit → Noted Unit
  | .logger, next => next
  | .errorHandler, next =>
      recover (do next; beside (finish env)) fun stop =>
        match stop with
        | .raised e => some (beside (answerError env e))
        | _ => none
  | .parser, next => do
      beside (parserProcess env (pure ()))
      next
  | .limiter l, next => do
      noteRequest
      beside (l.process env env.globalLimit (pure ()))
      next
  | .rateLimiter, next => do
      beside (rateLimiterProcess env (pure ()))
      next
  | .authenticator, next => do
      let route ← beside (authorizeRoute env)
      next
      beside (if route.isAuthenticator then mintToken env else pure ())

/-- `run_pipeline`, with them noted. -/
def submitPipeline (env : Env) : List Component → Noted Unit
  | [] => pure ()
  | c :: rest => c.submit env (submitPipeline env rest)

-- ================================================================== erasure

variable {env : Env}

/-- A limiter goes on to `next` last of all. -/
theorem limiter_seq (view : LimitView) (l : Limiter) (next : Act Unit) :
    l.process env view next
      = l.process env view (pure ()) >>= fun _ => next := by
  cases l with
  | fixedWindow s =>
      simp only [Limiter.process, fixedWindowProcess, Proc.bind_assoc]
      refine congrArg _ (funext fun txn => congrArg _ (funext fun key => ?_))
      split
      · rfl
      · split
        · rfl
        · rfl
        · simp only [Proc.bind_assoc, Proc.pure_bind]
  | tokenBucket s =>
      simp only [Limiter.process, tokenBucketProcess, Proc.bind_assoc]
      refine congrArg _ (funext fun txn => congrArg _ (funext fun key => ?_))
      split
      · rfl
      · rfl
      · simp only [Proc.bind_assoc, Proc.pure_bind]

/-- So does the parser. -/
theorem parser_seq (next : Act Unit) :
    parserProcess env next
      = parserProcess env (pure ()) >>= fun _ => next := by
  unfold parserProcess
  split
  · rfl
  · simp only [Proc.bind_assoc, Proc.pure_bind]

/-- And the limiter of a route. -/
theorem rateLimiter_seq (next : Act Unit) :
    rateLimiterProcess env next
      = rateLimiterProcess env (pure ()) >>= fun _ => next := by
  simp only [rateLimiterProcess, Proc.bind_assoc]
  refine congrArg _ (funext fun txn => congrArg _ (funext fun route => ?_))
  cases route.rateLimiter with
  | none => rfl
  | some l => exact limiter_seq env.routeLimit l next

/-- The authenticator mints behind it. -/
theorem authenticator_seq (next : Act Unit) :
    authenticatorProcess env next
      = authorizeRoute env >>= fun route => next >>= fun _ =>
          if route.isAuthenticator then mintToken env else pure () := by
  simp only [authenticatorProcess, authorizeRoute, Proc.bind_assoc,
    Proc.pure_bind]

/-- A note is erased. -/
theorem erases_note {p : Noted Unit} {a : Act Unit} (h : Erases p a) :
    Erases (noteRequest >>= fun _ => p) a :=
  fun s g => h s (g ++ [s.request])

/-- Without its notes a component is itself. -/
theorem component_erases (c : Component) {p : Noted Unit} {next : Act Unit}
    (h : Erases p next) : Erases (c.submit env p) (c.process env next) := by
  cases c with
  | logger => exact h
  | errorHandler =>
      -- Both recover from a throw and from nothing else.
      refine erases_recover
        (erases_bind h fun _ => erases_beside (finish env)) ?_ ?_
      · intro stop hstop
        cases stop with
        | raised e => cases hstop
        | pending => rfl
        | crash => rfl
      · intro stop q hstop
        cases stop with
        | raised e =>
            cases hstop
            exact ⟨_, rfl, erases_beside (answerError env e)⟩
        | pending => cases hstop
        | crash => cases hstop
  | parser =>
      simp only [Component.submit, Component.process]
      rw [parser_seq next]
      exact erases_bind (erases_beside _) fun _ => h
  | limiter l =>
      simp only [Component.submit, Component.process]
      rw [limiter_seq _ _ next]
      exact erases_note (erases_bind (erases_beside _) fun _ => h)
  | rateLimiter =>
      simp only [Component.submit, Component.process]
      rw [rateLimiter_seq next]
      exact erases_bind (erases_beside _) fun _ => h
  | authenticator =>
      simp only [Component.submit, Component.process]
      rw [authenticator_seq next]
      exact erases_bind (erases_beside _) fun route =>
        erases_bind h fun _ => erases_beside _

/-- Nor does the pipeline change. -/
theorem submit_erases (pipeline : List Component) :
    Erases (submitPipeline env pipeline) (runPipeline env pipeline) := by
  induction pipeline with
  | nil => exact fun _ _ => ⟨rfl, rfl⟩
  | cons c rest ih => exact component_erases c ih

-- ============================================================== the sessions

/-- The components other than the limiter note nothing themselves. -/
theorem component_leavesAside {c : Component} (hc : c.isLimiter = false)
    {p : Noted Unit} (h : LeavesAside p) : LeavesAside (c.submit env p) := by
  cases c with
  | logger => exact h
  | errorHandler =>
      intro s
      refine (recover_snd (fun stop q hstop => ?_) s).trans ?_
      · cases stop with
        | raised e =>
            cases hstop
            exact leavesAside_beside _
        | pending => cases hstop
        | crash => cases hstop
      · exact leavesAside_bind h (fun _ => leavesAside_beside _) s
  | parser => exact leavesAside_bind (leavesAside_beside _) fun _ => h
  | limiter l => cases hc
  | rateLimiter => exact leavesAside_bind (leavesAside_beside _) fun _ => h
  | authenticator =>
      exact leavesAside_bind (leavesAside_beside _) fun _ =>
        leavesAside_bind h fun _ => leavesAside_beside _

/-- Neither does a pipeline of them. -/
theorem submit_leavesAside {pipeline : List Component}
    (h : ∀ c ∈ pipeline, c.isLimiter = false) :
    LeavesAside (submitPipeline env pipeline) := by
  induction pipeline with
  | nil => exact leavesAside_pure ()
  | cons c rest ih =>
      exact component_leavesAside (h c List.mem_cons_self)
        (ih fun d hd => h d (List.mem_cons_of_mem _ hd))

/-- The error handler notes what is noted in it. -/
theorem errorHandler_notes (p : Noted Unit) (s : Txn × List Request) :
    (Component.errorHandler.submit env p s).2.2 = (p s).2.2 := by
  refine (recover_snd (fun stop q hstop => ?_) s).trans ?_
  · cases stop with
    | raised e =>
        cases hstop
        exact leavesAside_beside _
    | pending => cases hstop
    | crash => cases hstop
  · exact bind_beside_snd p (fun _ => finish env) s

/-- The limiter notes the request it is called with. -/
theorem limiter_notes {p : Noted Unit} (h : LeavesAside p) (l : Limiter)
    (s : Txn) (noted : List Request) :
    ((Component.limiter l).submit env p (s, noted)).2.2
      = noted ++ [s.request] :=
  leavesAside_bind (leavesAside_beside _) (fun _ => h) (s, noted ++ [s.request])

/-- Behind the parser nothing is noted unless it accepts. -/
theorem parser_notes (p : Noted Unit) (s : Txn) (noted : List Request) :
    (Component.parser.submit env p (s, noted)).2.2
      = match parserProcess env (pure ()) s with
        | (.ok (), s') => (p (s', noted)).2.2
        | (.error _, _) => noted := by
  simp only [Component.submit]
  rw [bind_apply, beside_apply]
  cases parserProcess env (pure ()) s with
  | mk r s' => cases r <;> rfl

end CgiWebServer
