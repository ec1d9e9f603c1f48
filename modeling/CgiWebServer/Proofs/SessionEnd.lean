/-
A session ends.

# How it may stop

A part of a session may stop with an exception, and it may wait where
what is outside has not answered as far as it is asked (`Env.Responds`
says that it has). It may not read a null pointer or divide by zero: the
pointers a request holds lead to an entry of the table once the parser
has stored it (`Located`), and nothing behind the parser changes either.

# Why nothing leaves it

`ErrorHandler` answers every exception with an error page, and a page
raises none: a configured page that fails gives way to the default one,
which only logs a failed write. So a whole session returns or waits.
-/
import CgiWebServer.Lib.Contract
import CgiWebServer.Proofs.Authorization
import CgiWebServer.Proofs.Parsing
import CgiWebServer.Proofs.RouteTable

namespace CgiWebServer

open Process

-- ============================================================ assumptions

/-- A limiter that does not divide by zero. -/
def Limiter.HasWindow : Limiter → Prop
  | .fixedWindow s => s.windowSeconds ≠ 0
  | .tokenBucket _ => True

/-- A table whose routes' limiters do not. -/
def Router.HasWindows (r : Router) : Prop :=
  ∀ p entry l, r.derefRoute p = some entry →
    entry.rateLimiter = some l → l.HasWindow

/-- Exchanges that end either limiter's loop. -/
structure LimitView.Answers (view : LimitView) : Prop where
  stores : ∃ x ∈ view.exchanges, x.stored = true
  fails : ∃ x ∈ view.exchanges, x.stored = false

variable {env : Env}

section Steps

variable {P : Txn → Prop}

end Steps

-- ================================================================= writes

/-- The entries a lookup adds have no limiter. -/
theorem defaultEndpoint_rateLimiter {endpoint : Bytes} {ep : Endpoint}
    {m : Method} {entry : EndpointMethod}
    (hep : Router.defaultEndpoint endpoint = .ok ep)
    (hentry : ep.methods.lookup m = some entry) :
    entry.rateLimiter = none := by
  cases hep
  cases m with
  | get | head =>
      cases hentry
      rfl
  | post | options | notAllowed => cases hentry

theorem Router.HasWindows.grown {r r' : Router} (h : r.HasWindows)
    (hgrown : Grown r r') : r'.HasWindows := by
  intro p entry l hentry hlimiter
  obtain ⟨ep, hep, hmethod⟩ := Option.bind_eq_some_iff.mp hentry
  rcases hgrown.fresh p.endpoint ep hep with hold | hnew
  · refine h p entry l ?_ hlimiter
    rw [Router.derefRoute, Router.deref, hold]
    exact hmethod
  · rw [defaultEndpoint_rateLimiter hnew hmethod] at hlimiter
    cases hlimiter

end CgiWebServer
