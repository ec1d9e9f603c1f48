/-
Which requests count against the global limit.

Sessions run one after another over the words of the global limiter: each
meets the word of its key as the sessions before it have left it. A
limiter that goes by the address stands in front of the parser and is
asked by every session. Any other stands behind it, and is asked by those
only whose request the parser accepts: one it refuses is answered
without having been counted.
-/
import CgiWebServer.Lib.Steps
import CgiWebServer.Proofs.AdmissionBound
import CgiWebServer.Proofs.Parsing
import CgiWebServer.Proofs.Submissions

namespace CgiWebServer

open Process Process.Proc

-- ============================================================== the sessions

/-- A session to come, and what the limiter's call in it meets besides
the words: the clock as `findBucket` reads it, and which exchanges fail
spuriously. -/
structure Visit where
  env : Env
  created : Int := 0
  spurious : List Bool := []

/-- Its call, with a request. -/
def Visit.call (v : Visit) (request : Request) : Call where
  ip := v.env.ip
  request := request
  created := v.created
  secs := v.env.globalLimit.secs
  systemSecs := v.env.globalLimit.systemSecs
  spurious := v.spurious

/-- A session that is over: the requests it has submitted to the limiter,
and its transaction. -/
structure Session where
  visit : Visit
  submitted : List Request
  txn : Txn

/-- A session on a pipeline. -/
def Visit.run (pipeline : List Component) (router : Router) (v : Visit) :
    Session :=
  let s := (submitPipeline v.env pipeline ({ router := router }, [])).2
  { visit := v, submitted := s.2, txn := s.1 }

/-- The sessions so far, and the router they have left. -/
structure History where
  router : Router
  sessions : List Session := []

/-- The calls of the limiter. -/
def History.calls (h : History) : List Call :=
  h.sessions.flatMap fun s => s.submitted.map s.visit.call

/-- One more session. -/
def History.visit (pipeline : List Component) (h : History) (v : Visit) :
    History :=
  let s := v.run pipeline h.router
  { router := s.txn.router, sessions := h.sessions ++ [s] }

/-- Sessions one after another. -/
def historyOf (pipeline : List Component) (router : Router)
    (visits : List Visit) : History :=
  visits.foldl (History.visit pipeline) { router := router }

-- ================================================================= the words

/-- The value of the loop's exchange on which it goes round. -/
def Limiter.repeatOn : Limiter → Bool
  | .fixedWindow _ => true
  | .tokenBucket _ => false

/-- The word a call finds under its key. -/
def Limiter.wordFor (words : Words) (key : Bytes) (c : Call) :
    Limiter → UInt64
  | .fixedWindow _ => (words.lookup key).getD 0
  | .tokenBucket s => TokenBucket.wordFor s words key c

/-- A session meets the word of its key as the sessions so far have left
it. -/
def Meets (l : Limiter) (pipeline : List Component) (h : History)
    (v : Visit) : Prop :=
  ∀ request ∈ (v.run pipeline h.router).submitted, ∀ key,
    l.makeKey.makeKey v.env.ip request = .ok key →
      v.env.globalLimit
        = aloneView (l.attempt v.env.globalLimit.secs) l.repeatOn
            (v.call request)
            (l.wordFor (wordsAfter l.serve h.calls) key (v.call request))

/-- Sessions on a pipeline with this limiter, each of which meets the
words of those before it. -/
structure Visits (l : Limiter) (pipeline : List Component)
    (router : Router) where
  visits : List Visit
  meets : Steps.Every (fun before v =>
    Meets l pipeline (historyOf pipeline router before) v) visits

def Visits.history {l : Limiter} {pipeline : List Component}
    {router : Router} (run : Visits l pipeline router) : History :=
  historyOf pipeline router run.visits

-- ======================================================= counted and served

/-- Every session whose bytes are read has submitted one request. -/
def History.SubmitsEvery (h : History) : Prop :=
  ∀ s ∈ h.sessions, s.visit.env.readEc = .ok → s.submitted.length = 1

/-- A session whose bytes are read is answered otherwise than with 429,
and has submitted requests of a kind or none at all. -/
def Session.passes (kind : Call → Bool) (s : Session) : Bool :=
  s.visit.env.readEc = .ok
    && (s.submitted.all fun request => kind (s.visit.call request))
    && s.txn.response.status ≠ .tooManyRequests

/-- How many do so. -/
def History.served (h : History) (kind : Call → Bool) : Nat :=
  h.sessions.countP (·.passes kind)

/-- The bytes were read, and a request can be read off them: one of an
endpoint and a method that the table has, with good arguments and
headers. -/
def Parses (env : Env) (router : Router) : Prop :=
  env.readEc = .ok
    ∧ ∃ request router', ParseReads env env.buffer router request router'

/-- The key is the address, or the parser accepts every request. -/
def Visits.ReachLimiter {l : Limiter} {pipeline : List Component}
    {router : Router} (run : Visits l pipeline router) : Prop :=
  Steps.Every (fun before v => l.makeKey = .ip
    ∨ (v.env.readEc = .ok →
        Parses v.env (historyOf pipeline router before).router))
    run.visits

-- ============================================================== the histories

section Histories

variable {pipeline : List Component} {router : Router}

theorem historyOf_snoc (visits : List Visit) (v : Visit) :
    historyOf pipeline router (visits ++ [v])
      = (historyOf pipeline router visits).visit pipeline v := by
  rw [historyOf, List.foldl_append]
  rfl

/-- A session's transaction is the pipeline's. -/
theorem run_txn (v : Visit) :
    (v.run pipeline router).txn = transact v.env pipeline router :=
  (submit_erases pipeline { router := router } []).2

theorem calls_visit (h : History) (v : Visit) :
    (h.visit pipeline v).calls = h.calls
      ++ (v.run pipeline h.router).submitted.map v.call := by
  simp only [History.calls, History.visit, List.flatMap_append,
    List.flatMap_singleton]
  rfl

end Histories

-- =========================================================== one submission

section Session

variable {l : Limiter} {rest : List Component} {router : Router}

/-- The limiter in front of the parser is asked by every session. -/
theorem submitted_in_front
    (hrest : ∀ c ∈ rest, c.isLimiter = false) (v : Visit) :
    (v.run ([.logger, .errorHandler, .limiter l] ++ rest) router).submitted
      = [{}] :=
  (errorHandler_notes _ _).trans
    (limiter_notes (submit_leavesAside hrest) l { router := router } [])

/-- The limiter behind it is asked where the parser accepts, with what it
has parsed. -/
theorem submitted_behind
    (hrest : ∀ c ∈ rest, c.isLimiter = false) (v : Visit) :
    (v.run ([.logger, .errorHandler, .parser, .limiter l] ++ rest)
        router).submitted
      = match parserProcess v.env (pure ()) { router := router } with
        | (.ok (), txn) => [txn.request]
        | (.error _, _) => [] := by
  refine (errorHandler_notes _ _).trans ((parser_notes _ _ _).trans ?_)
  cases parserProcess v.env (pure ()) { router := router } with
  | mk r txn =>
      cases r with
      | ok x =>
          exact limiter_notes (submit_leavesAside hrest) l txn []
      | error e => rfl

/-- So its calls are those of the sessions. -/
theorem calls_in_front (hrest : ∀ c ∈ rest, c.isLimiter = false)
    (visits : List Visit) :
    (historyOf ([.logger, .errorHandler, .limiter l] ++ rest) router
        visits).calls = visits.map (·.call {}) := by
  induction visits using List.reverseRecOn with
  | nil => rfl
  | append_singleton before v ih =>
      rw [historyOf_snoc, calls_visit, ih, submitted_in_front hrest v,
        List.map_append]
      rfl

end Session

-- ============================================================== the refusals

/-- The status of a response stays. -/
def KeepsStatus (s t : Txn) : Prop := t.response.status = s.response.status

theorem KeepsStatus.refl (s : Txn) : KeepsStatus s s := rfl

theorem KeepsStatus.trans (s t u : Txn) (h : KeepsStatus s t)
    (h' : KeepsStatus t u) : KeepsStatus s u := Eq.trans h' h

section Status

variable (env : Env)

/-- A process that leaves the status alone, however it ends. -/
abbrev Statusless {α : Type} (a : Act α) : Prop :=
  Within KeepsStatus (fun _ => True) a

theorem statusless_bind {α β : Type} {a : Act α} {f : α → Act β}
    (ha : Statusless a) (hf : ∀ x, Statusless (f x)) :
    Statusless (a >>= f) :=
  within_bind KeepsStatus.trans ha hf

theorem statusless_pure {α : Type} (x : α) : Statusless (pure x : Act α) :=
  within_pure KeepsStatus.refl x

theorem statusless_raise {α : Type} (stop : Stop) :
    Statusless (Proc.raise stop : Act α) :=
  within_raise (Q := fun _ => True) KeepsStatus.refl trivial

theorem statusless_get : Statusless (Proc.get : Act Txn) :=
  within_get KeepsStatus.refl

theorem statusless_record (e : Event) : Statusless (record e) :=
  within_modify fun _ => rfl

theorem statusless_modify {f : Response → Response}
    (h : ∀ r, (f r).status = r.status) : Statusless (modifyResponse f) :=
  within_modify fun s => h s.response

theorem statusless_sendHead : Statusless (sendHead env) := by
  refine statusless_bind statusless_get fun _ => ?_
  refine statusless_bind (statusless_modify fun _ => rfl) fun _ => ?_
  refine statusless_bind statusless_get fun txn => ?_
  refine statusless_bind statusless_get fun _ => ?_
  refine statusless_bind (statusless_record _) fun _ => ?_
  split
  · exact statusless_raise _
  · exact statusless_pure _

theorem statusless_defaultErrorPage : Statusless (defaultErrorPage env) :=
  statusless_bind (statusless_sendHead env) fun _ => statusless_pure _

theorem statusless_serveErrorPage (file : Bytes) :
    Statusless (serveErrorPage env file) := by
  refine statusless_bind ?_ fun opened => ?_
  · refine statusless_bind statusless_get fun _ => ?_
    refine statusless_bind (statusless_record _) fun _ => ?_
    refine statusless_bind ?_ fun _ => statusless_pure _
    exact within_ofExcept (Q := fun _ => True) KeepsStatus.refl
      fun _ _ => trivial
  · refine statusless_bind (statusless_modify fun _ => rfl) fun _ => ?_
    refine statusless_bind ?_ fun _ => ?_
    · refine statusless_bind (statusless_sendHead env) fun result => ?_
      unfold requireSuccess
      split
      · exact statusless_pure _
      · exact statusless_raise _
    · refine statusless_bind statusless_get fun _ => ?_
      refine statusless_bind (statusless_record _) fun _ => ?_
      split
      · exact statusless_pure _
      · exact statusless_raise _
      · exact statusless_raise _

theorem statusless_errorPage (page : Option Bytes) :
    Statusless (errorPage env page) := by
  cases page with
  | none => exact statusless_defaultErrorPage env
  | some file =>
      refine within_recover KeepsStatus.trans
        (statusless_serveErrorPage env file) fun stop h _ hstop => ?_
      cases stop with
      | raised e =>
          cases hstop
          exact statusless_defaultErrorPage env
      | pending => cases hstop
      | crash => cases hstop

/-- An exception is answered with its status. -/
theorem status_answerError (e : Exn) (s : Txn) :
    (answerError env e s).2.response.status = e.status := by
  have hpage := statusless_bind statusless_get
    (fun txn : Txn => statusless_errorPage env
      (txn.router.getErrorPage txn.response.status))
    { s with response := errorResponse e }
  refine Eq.trans hpage.1 ?_
  cases e <;> rfl

end Status

/-- A limiter does what `serve` says of the word it meets. -/
theorem process_alone (l : Limiter) {env : Env} {txn : Txn} {c : Call}
    (words : Words) (hip : env.ip = c.ip) (hrequest : txn.request = c.request)
    {key : Bytes} (hkey : l.makeKey.makeKey c.ip c.request = .ok key)
    (next : Act Unit) :
    l.process env (aloneView (l.attempt c.secs) l.repeatOn c
        (l.wordFor words key c)) next txn
      = (l.serve words c).2.resume next txn := by
  cases l with
  | fixedWindow s =>
      exact fixedWindowProcess_alone s words hip hrequest hkey next
  | tokenBucket s =>
      exact tokenBucketProcess_alone s words hip hrequest hkey next

/-- What the error handler catches it answers with its status. -/
theorem status_caught {env : Env} {next : Act Unit} {s s' : Txn} {e : Exn}
    (h : next s = (.error (.raised e), s')) :
    (errorHandlerProcess env next s).2.response.status = e.status := by
  unfold errorHandlerProcess
  simp only [recover, bind_of_error h]
  exact status_answerError env e s'

section Refusal

variable {l : Limiter} {rest : List Component} {router : Router}

/-- A session whose submission is refused is answered with 429: where the
limiter is in front of the parser, -/
theorem refused_in_front (v : Visit) (words : Words) {key : Bytes}
    (hkey : l.makeKey.makeKey v.env.ip {} = .ok key)
    (hview : v.env.globalLimit
      = aloneView (l.attempt v.env.globalLimit.secs) l.repeatOn (v.call {})
          (l.wordFor words key (v.call {})))
    {e : Exn} (h : (l.serve words (v.call {})).2 = .rejected e) :
    (v.run ([.logger, .errorHandler, .limiter l] ++ rest)
        router).txn.response.status = .tooManyRequests := by
  have hprocess := @process_alone l v.env { router := router } (v.call {})
    words rfl rfl key hkey (runPipeline v.env rest)
  rw [h] at hprocess
  have hlimiter : l.process v.env v.env.globalLimit
      (runPipeline v.env rest) { router := router }
        = (.error (.raised e), { router := router }) := by
    rw [hview]
    exact hprocess
  rw [run_txn]
  exact (status_caught hlimiter).trans (status_of_rejected h)

/-- and where it is behind it. -/
theorem refused_behind (v : Visit) (words : Words) {txn : Txn}
    (hparse : parserProcess v.env (pure ()) { router := router }
      = (.ok (), txn))
    {key : Bytes} (hkey : l.makeKey.makeKey v.env.ip txn.request = .ok key)
    (hview : v.env.globalLimit
      = aloneView (l.attempt v.env.globalLimit.secs) l.repeatOn
          (v.call txn.request) (l.wordFor words key (v.call txn.request)))
    {e : Exn} (h : (l.serve words (v.call txn.request)).2 = .rejected e) :
    (v.run ([.logger, .errorHandler, .parser, .limiter l] ++ rest)
        router).txn.response.status = .tooManyRequests := by
  have hprocess := @process_alone l v.env txn (v.call txn.request) words
    rfl rfl key hkey (runPipeline v.env rest)
  rw [h] at hprocess
  have hparser : parserProcess v.env (runPipeline v.env (.limiter l :: rest))
      { router := router } = (.error (.raised e), txn) := by
    rw [parser_seq, bind_of_ok hparse]
    show l.process v.env v.env.globalLimit (runPipeline v.env rest) txn = _
    rw [hview]
    exact hprocess
  rw [run_txn]
  exact (status_caught hparser).trans (status_of_rejected h)

end Refusal

-- =============================================================== one session

/-- These are the bytes for which `Parser::process` does not throw. -/
theorem parses_iff {env : Env} {router : Router} :
    Parses env router
      ↔ ∃ txn, parserProcess env (pure ()) { router := router }
          = (.ok (), txn) := by
  constructor
  · rintro ⟨hread, request, router', hreads⟩
    exact ⟨_, parser_stores hread { router := router } (pure ()) hreads⟩
  · rintro ⟨txn, htxn⟩
    have hread : env.readEc = .ok := by
      by_contra hfailed
      unfold parserProcess at htxn
      rw [if_pos hfailed] at htxn
      cases htxn
    refine ⟨hread, ?_⟩
    rcases parse_cases env env.buffer router with ⟨e, hfails⟩ | hreads
    · obtain ⟨router', hthrows⟩ :=
        parser_throws hread { router := router } hfails
      cases (hthrows (pure ())).symm.trans htxn
    · exact hreads

/-- Where a pipeline has its limiter: in front of the parser if the key is
the address, behind it otherwise. -/
inductive Placed (l : Limiter) : List Component → Prop
  | inFront {rest} (hkey : l.makeKey = .ip)
      (hrest : ∀ c ∈ rest, c.isLimiter = false) :
      Placed l ([.logger, .errorHandler, .limiter l] ++ rest)
  | behind {rest} (hkey : l.makeKey ≠ .ip)
      (hrest : ∀ c ∈ rest, c.isLimiter = false) :
      Placed l ([.logger, .errorHandler, .parser, .limiter l] ++ rest)

/-- A loaded pipeline has it so. -/
theorem placed_of_enabled {serverConfig : XMLElement}
    {pipeline : List Component}
    (hload : loadPipeline serverConfig = .ok pipeline)
    (h : ¬ RateLimitDisabled serverConfig) :
    Placed (configuredGlobal serverConfig) pipeline := by
  rcases loadPipeline_cases hload with
    ⟨hdisabled, -⟩ | ⟨-, hip, rfl⟩ | ⟨-, hreads, rfl⟩
  · exact absurd hdisabled h
  · rw [KeyFunc.readsRequest_iff, not_not] at hip
    exact Placed.inFront hip (by simp [Component.isLimiter])
  · rw [KeyFunc.readsRequest_iff] at hreads
    exact Placed.behind hreads (by simp [Component.isLimiter])

section Run

variable {l : Limiter} {pipeline : List Component}

/-- A session submits one request, and is answered with 429 if that is
refused; or it submits none, and the parser does not accept it. -/
theorem run_cases (hp : Placed l pipeline) (router : Router) (v : Visit) :
    (∃ request, (v.run pipeline router).submitted = [request]
        ∧ (l.makeKey = .ip ∨ Parses v.env router)
        ∧ ∀ words key e, l.makeKey.makeKey v.env.ip request = .ok key →
          v.env.globalLimit
            = aloneView (l.attempt v.env.globalLimit.secs) l.repeatOn
                (v.call request) (l.wordFor words key (v.call request)) →
          (l.serve words (v.call request)).2 = .rejected e →
          (v.run pipeline router).txn.response.status = .tooManyRequests)
      ∨ ((v.run pipeline router).submitted = [] ∧ l.makeKey ≠ .ip
          ∧ ¬ Parses v.env router) := by
  cases hp with
  | inFront hkey hrest =>
      exact Or.inl ⟨{}, submitted_in_front hrest v, Or.inl hkey,
        fun words key e hmade hview h =>
          refused_in_front v words hmade hview h⟩
  | behind hkey hrest =>
      have hsubmitted := @submitted_behind l _ router hrest v
      cases hparse : parserProcess v.env (pure ()) { router := router } with
      | mk r txn =>
          rw [hparse] at hsubmitted
          cases r with
          | ok x =>
              exact Or.inl ⟨txn.request, hsubmitted,
                Or.inr (parses_iff.mpr ⟨txn, hparse⟩),
                fun words key e hmade hview h =>
                  refused_behind v words hparse hmade hview h⟩
          | error e =>
              refine Or.inr ⟨hsubmitted, hkey, fun hparses => ?_⟩
              obtain ⟨txn', htxn'⟩ := parses_iff.mp hparses
              cases hparse.symm.trans htxn'

/-- A session whose bytes are read submits one request exactly if the key
is the address or the parser accepts it. -/
theorem submits_iff (hp : Placed l pipeline) (router : Router) (v : Visit) :
    (v.env.readEc = .ok → (v.run pipeline router).submitted.length = 1)
      ↔ (l.makeKey = .ip ∨ (v.env.readEc = .ok → Parses v.env router)) := by
  rcases run_cases hp router v with
    ⟨request, hsubmitted, hreach, -⟩ | ⟨hnone, hkey, hrefused⟩
  · rw [hsubmitted]
    refine iff_of_true (fun _ => rfl) ?_
    rcases hreach with hip | hparses
    · exact Or.inl hip
    · exact Or.inr fun _ => hparses
  · rw [hnone]
    constructor
    · intro h
      exact Or.inr fun hread => absurd (h hread) (by decide)
    · rintro (hip | h) hread
      · exact absurd hip hkey
      · exact absurd (h hread) hrefused

-- ================================================================= the runs

variable {router : Router}

/-- Every session submits exactly if every one reaches the limiter. -/
theorem submitsEvery_iff (hp : Placed l pipeline) (visits : List Visit) :
    (historyOf pipeline router visits).SubmitsEvery
      ↔ Steps.Every (fun before v => l.makeKey = .ip
          ∨ (v.env.readEc = .ok →
              Parses v.env (historyOf pipeline router before).router))
          visits := by
  refine Steps.iff_every (Q := fun visits =>
    (historyOf pipeline router visits).SubmitsEvery) ?_ (fun before v => ?_)
    visits
  · intro s hs
    cases hs
  · rw [historyOf_snoc, ← submits_iff hp]
    unfold History.SubmitsEvery History.visit
    simp only [List.mem_append, List.mem_singleton]
    constructor
    · intro h
      exact ⟨fun s hs => h s (Or.inl hs), h _ (Or.inr rfl)⟩
    · rintro ⟨hbefore, hlast⟩ s (hs | rfl)
      · exact hbefore s hs
      · exact hlast

/-- A session that passes has submitted a request of the kind, which was
admitted. -/
theorem admitted_of_passes (hp : Placed l pipeline) (hl : l.Valid)
    {kind : Call → Bool} (hkeyed : l.Keyed kind) {h : History} {v : Visit}
    (hreach : l.makeKey = .ip ∨ (v.env.readEc = .ok → Parses v.env h.router))
    (hmeets : Meets l pipeline h v)
    (hcalls : l.Undisturbed (h.visit pipeline v).calls)
    (hpasses : (v.run pipeline h.router).passes kind = true) :
    ∃ request, (v.run pipeline h.router).submitted = [request]
      ∧ kind (v.call request) = true
      ∧ (l.serve (wordsAfter l.serve h.calls)
          (v.call request)).2.isAdmitted = true := by
  simp only [Session.passes, Bool.and_eq_true, decide_eq_true_eq]
    at hpasses
  obtain ⟨⟨hread, hall⟩, hstatus⟩ := hpasses
  rcases run_cases hp h.router v with
    ⟨request, hsubmitted, -, hrefused⟩ | ⟨-, hkey, hfails⟩
  · refine ⟨request, hsubmitted, ?_⟩
    have hkind : kind (v.call request) = true := by
      rw [hsubmitted] at hall
      exact List.all_eq_true.mp hall request (List.mem_singleton.mpr rfl)
    obtain ⟨key, hmade⟩ := hkeyed _ hkind
    rw [calls_visit, hsubmitted, List.map_singleton] at hcalls
    rcases admitted_or_rejected hl hcalls hmade with hyes | ⟨e, hrejected⟩
    · exact ⟨hkind, hyes⟩
    · have hview := hmeets request (by simp [hsubmitted]) key hmade
      exact absurd (hrefused _ key e hmade hview hrejected) hstatus
  · rcases hreach with hip | hparses
    · exact absurd hip hkey
    · exact absurd (hparses hread) hfails

/-- One more session passes only if one more request is admitted. -/
theorem served_visit_le (hp : Placed l pipeline) (hl : l.Valid)
    {kind : Call → Bool} (hkeyed : l.Keyed kind) {h : History} {v : Visit}
    (hreach : l.makeKey = .ip ∨ (v.env.readEc = .ok → Parses v.env h.router))
    (hmeets : Meets l pipeline h v)
    (hcalls : l.Undisturbed (h.visit pipeline v).calls)
    (hle : h.served kind ≤ l.admissions kind h.calls) :
    (h.visit pipeline v).served kind
      ≤ l.admissions kind (h.visit pipeline v).calls := by
  have hpasses := admitted_of_passes hp hl hkeyed hreach hmeets hcalls
  have hcount : (h.visit pipeline v).served kind = h.served kind
      + if (v.run pipeline h.router).passes kind = true then 1 else 0 := by
    rw [History.served, History.visit, List.countP_append,
      List.countP_singleton, History.served]
  rw [hcount, calls_visit]
  by_cases hyes : (v.run pipeline h.router).passes kind = true
  · obtain ⟨request, hsubmitted, hkind, hadmitted⟩ := hpasses hyes
    rw [if_pos hyes, hsubmitted, List.map_singleton, admissions_snoc, hkind,
      hadmitted]
    exact Nat.add_le_add_right hle 1
  · rw [if_neg hyes]
    exact Nat.le_trans hle (admissions_append_le l kind h.calls _)

/-- So the sessions that pass are at most the requests admitted. -/
theorem served_le (hp : Placed l pipeline) (hl : l.Valid)
    {kind : Call → Bool} (hkeyed : l.Keyed kind) {visits : List Visit}
    (hreach : Steps.Every (fun before v => l.makeKey = .ip
      ∨ (v.env.readEc = .ok →
          Parses v.env (historyOf pipeline router before).router)) visits)
    (hmeets : Steps.Every (fun before v =>
      Meets l pipeline (historyOf pipeline router before) v) visits)
    (hcalls : l.Undisturbed (historyOf pipeline router visits).calls) :
    (historyOf pipeline router visits).served kind
      ≤ l.admissions kind (historyOf pipeline router visits).calls := by
  induction visits using List.reverseRecOn with
  | nil => exact Nat.zero_le _
  | append_singleton before v ih =>
      obtain ⟨hreachBefore, hreachLast⟩ := Steps.every_snoc.mp hreach
      obtain ⟨hmeetsBefore, hmeetsLast⟩ := Steps.every_snoc.mp hmeets
      rw [historyOf_snoc] at hcalls ⊢
      have hbefore : l.Undisturbed
          (historyOf pipeline router before).calls := by
        rw [calls_visit] at hcalls
        exact hcalls.before
      exact served_visit_le hp hl hkeyed hreachLast hmeetsLast hcalls
        (ih hreachBefore hmeetsBefore hbefore)

end Run

-- ================================================================== the law

/-- Under a global limiter every session whose bytes are read submits one
request exactly if the key is the address or the parser accepts every
one; and then those of a client that are not answered with 429 are within
the limit. -/
theorem every_request_counts_iff {serverConfig : XMLElement}
    {pipeline : List Component}
    (hload : loadPipeline serverConfig = .ok pipeline)
    (henabled : ¬ RateLimitDisabled serverConfig) {router : Router}
    (run : Visits (configuredGlobal serverConfig) pipeline router) :
    (run.history.SubmitsEvery ↔ run.ReachLimiter)
      ∧ (run.ReachLimiter → (configuredGlobal serverConfig).Valid →
          (configuredGlobal serverConfig).Undisturbed run.history.calls →
          (configuredGlobal serverConfig).Limits run.history.calls
            run.history.served) := by
  have hp := placed_of_enabled hload henabled
  refine ⟨submitsEvery_iff hp run.visits, fun hreach hvalid hcalls => ?_⟩
  exact (limits_admissions hvalid hcalls).mono fun kind hkeyed =>
    served_le hp hvalid hkeyed hreach run.meets hcalls

/-- A global limit of two requests a minute. -/
def twoGlobal : XMLElement :=
  .mk (bytes "ServerConfig") []
    [.mk (bytes "Global") []
      [.mk (bytes "RateLimit") [(bytes "max_requests", bytes "2")] []]]

/-- Its limiter, and the pipeline it is loaded into. -/
def twoLimiter : Limiter := .fixedWindow { maxRequests := 2 }

def twoPipeline : List Component :=
  [.logger, .errorHandler, .limiter twoLimiter, .parser, .rateLimiter,
    .authenticator]

theorem loadPipeline_two : loadPipeline twoGlobal = .ok twoPipeline := rfl

/-- The call every session makes, alone with it. -/
def loneCall : Call := { spurious := [false, false] }

/-- A session behind `n` others that sends a text: it meets the word they
have left. -/
def visitAt (n : Nat) (text : String) : Visit where
  env :=
    { readData := bytes text
      globalLimit := aloneView (twoLimiter.attempt 0) true loneCall
        (twoLimiter.wordFor
          (wordsAfter twoLimiter.serve (List.replicate n loneCall)) []
          loneCall) }
  spurious := loneCall.spurious

theorem meets_visitAt {before : List Visit} (text : String)
    (hbefore : before.map (·.call {})
      = List.replicate before.length loneCall) :
    Meets twoLimiter twoPipeline
      (historyOf twoPipeline Router.initial before)
      (visitAt before.length text) := by
  have hcalls : (historyOf twoPipeline Router.initial before).calls
      = List.replicate before.length loneCall :=
    (calls_in_front (l := twoLimiter) (by simp [Component.isLimiter])
      before).trans hbefore
  intro request _ key hkey
  obtain rfl : [] = key := Except.ok.inj hkey
  rw [hcalls]
  rfl

/-- A request that is served, one that the parser refuses, and one too
many. -/
def mixedVisits : List Visit :=
  [visitAt 0 "GET / HTTP/1.1\r\n\r\n", visitAt 1 "x",
    visitAt 2 "GET / HTTP/1.1\r\n\r\n"]

theorem mixed_meets :
    Steps.Every (fun before v => Meets twoLimiter twoPipeline
      (historyOf twoPipeline Router.initial before) v) mixedVisits := by
  refine (Steps.every_snoc (l := [_, _])).mpr ⟨?_, meets_visitAt _ rfl⟩
  refine (Steps.every_snoc (l := [_])).mpr ⟨?_, meets_visitAt _ rfl⟩
  exact (Steps.every_snoc (l := [])).mpr
    ⟨Steps.every_nil, meets_visitAt _ rfl⟩

/-- Their run. -/
def mixedRun : Visits (configuredGlobal twoGlobal) twoPipeline
    Router.initial :=
  ⟨mixedVisits, mixed_meets⟩

theorem mixedRun_calls :
    mixedRun.history.calls = List.replicate 3 loneCall :=
  calls_in_front (l := twoLimiter) (by simp [Component.isLimiter]) _

theorem mixedRun_undisturbed :
    (configuredGlobal twoGlobal).Undisturbed mixedRun.history.calls := by
  rw [mixedRun_calls]
  exact {
    in_range := by decide
    in_order := by decide
    no_failure := by
      intro c hc
      exact ⟨2, Nat.le_refl 2, by rw [List.eq_of_mem_replicate hc]; rfl⟩ }

set_option maxRecDepth 20000 in
/-- All three are counted, and two are within the limit. -/
theorem every_request_counts_mixed :
    (mixedRun.history.sessions.map fun s => s.txn.response.status)
        = [.ok, .badRequest, .tooManyRequests]
      ∧ mixedRun.history.SubmitsEvery
      ∧ (configuredGlobal twoGlobal).Limits mixedRun.history.calls
          mixedRun.history.served := by
  have henabled : ¬ RateLimitDisabled twoGlobal := by
    rintro ⟨rateElem, hsome, hdisabled⟩
    cases hsome
    exact absurd hdisabled (by decide)
  have hreach : mixedRun.ReachLimiter := by
    refine (Steps.every_snoc (l := [_, _])).mpr ⟨?_, Or.inl rfl⟩
    refine (Steps.every_snoc (l := [_])).mpr ⟨?_, Or.inl rfl⟩
    exact (Steps.every_snoc (l := [])).mpr ⟨Steps.every_nil, Or.inl rfl⟩
  obtain ⟨hcounts, hlimits⟩ :=
    every_request_counts_iff loadPipeline_two henabled mixedRun
  exact ⟨rfl, hcounts.mpr hreach,
    hlimits hreach ⟨by decide, by decide, by decide⟩
      mixedRun_undisturbed⟩

/-- A global limiter by `X-Forwarded-For`, as the README has one. -/
def xffGlobal : XMLElement :=
  .mk (bytes "ServerConfig") []
    [.mk (bytes "Global") []
      [.mk (bytes "RateLimit") []
        [.mk (bytes "Key")
          [(bytes "type", bytes "xff"), (bytes "fallback", bytes "ip")] []]]]

def xffPipeline : List Component :=
  [.logger, .errorHandler, .parser,
    .limiter (.fixedWindow { makeKey := .xff true }), .rateLimiter,
    .authenticator]

/-- A client that sends a byte. -/
def malformedVisit : Visit where
  env := { ip := bytes "10.0.0.9", readData := bytes "x" }

theorem malformed_submits_nothing :
    (malformedVisit.run xffPipeline Router.initial).submitted = [] := rfl

theorem malformed_meets :
    Steps.Every (fun before v =>
      Meets (configuredGlobal xffGlobal) xffPipeline
        (historyOf xffPipeline Router.initial before) v)
      [malformedVisit] := by
  refine (Steps.every_snoc (l := [])).mpr ⟨Steps.every_nil, ?_⟩
  intro request hrequest
  have hnone : request
      ∈ (malformedVisit.run xffPipeline Router.initial).submitted := hrequest
  rw [malformed_submits_nothing] at hnone
  cases hnone

def malformedRun : Visits (configuredGlobal xffGlobal) xffPipeline
    Router.initial :=
  ⟨[malformedVisit], malformed_meets⟩

/-- Its request is answered with 400 and has not been counted. -/
theorem malformed_request_uncounted :
    loadPipeline xffGlobal = .ok xffPipeline
      ∧ ¬ RateLimitDisabled xffGlobal
      ∧ (configuredGlobal xffGlobal).makeKey = .xff true
      ∧ (malformedRun.history.sessions.map fun s => s.txn.response.status)
        = [.badRequest]
      ∧ malformedRun.history.calls = []
      ∧ ¬ malformedRun.history.SubmitsEvery := by
  refine ⟨rfl, ?_, rfl, rfl, rfl, fun h => ?_⟩
  · rintro ⟨rateElem, hsome, hdisabled⟩
    cases hsome
    exact absurd hdisabled (by decide)
  · have hone := h (malformedVisit.run xffPipeline Router.initial)
      (List.mem_singleton.mpr rfl) rfl
    rw [malformed_submits_nothing] at hone
    cases hone

end CgiWebServer
