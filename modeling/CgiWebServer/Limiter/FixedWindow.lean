/-
`mw::FixedWindowLimiter` (Middleware.cpp): the loop body and the numbers
around it.
-/
import CgiWebServer.Limiter.Loop
import CgiWebServer.Limiter.Key

namespace CgiWebServer

/-- `cfg::FixedWindowSetting`, with its defaults. -/
structure FixedWindowSetting where
  windowSeconds : Int := 60
  maxRequests : Int := 3000
  makeKey : KeyFunc := .ip
  deriving DecidableEq

namespace FixedWindow

variable (s : FixedWindowSetting)

/-- `this_window_id`, from the steady clock's seconds. -/
def thisWindowId (secs : Int) : UInt32 := toU32 (secs.tdiv s.windowSeconds)

/-- The loop body: the desired word, or the throw. The upper half of
the word is the window, the lower half the count. -/
def attempt (windowId : UInt32) (old : UInt64) : Option UInt64 :=
  if upper old = windowId then
    if lower old ≥ toU32 s.maxRequests then none
    else some (pack windowId (lower old + 1))
  else some (pack windowId 1)

/-- `reset_time`, the end of the window. -/
def resetTime (windowId : UInt32) : UInt32 :=
  windowId * toU32 s.windowSeconds + toU32 s.windowSeconds

/-- `retry_after` of a rejection. -/
def retryAfter (windowId : UInt32) (secs : Int) : UInt32 :=
  let reset : Int := (resetTime s windowId).toNat
  if reset > secs then toU32 (reset - secs) else 0

/-- The exception of a rejection. -/
def rejection (key : Bytes) (windowId : UInt32) (secs : Int) : Exn :=
  .http (.mk' .tooManyRequests
    (bytes "client=" ++ key ++ bytes " has exceeded " ++ toStr s.maxRequests
      ++ bytes " requests in " ++ toStr s.windowSeconds ++ bytes "s")
    ((∅ : Headers).insert (bytes "Retry-After")
      (toStr (retryAfter s windowId secs).toNat)))

/-- The headers an admitted response gets, from the desired word the
loop was left with. -/
def admittedHeaders (windowId : UInt32) (desired : UInt64) :
    List (Bytes × Bytes) :=
  [(bytes "X-RateLimit-Limit", toStr s.maxRequests),
   (bytes "X-RateLimit-Remaining",
      toStr (toU32 s.maxRequests - lower desired).toNat),
   (bytes "X-RateLimit-Reset", toStr (resetTime s windowId).toNat)]

/-- What the body does: it throws at a full window, counts in its own
window, and restarts any other one at one. -/
theorem attempt_cases (windowId : UInt32) (old : UInt64) :
    (upper old = windowId ∧ toU32 s.maxRequests ≤ lower old
        ∧ attempt s windowId old = none)
      ∨ (upper old = windowId ∧ lower old < toU32 s.maxRequests
          ∧ attempt s windowId old
              = some (pack windowId (lower old + 1)))
      ∨ (upper old ≠ windowId
          ∧ attempt s windowId old = some (pack windowId 1)) := by
  unfold attempt
  by_cases hw : upper old = windowId
  · rw [if_pos hw]
    by_cases hc : lower old ≥ toU32 s.maxRequests
    · exact Or.inl ⟨hw, hc, if_pos hc⟩
    · exact Or.inr (Or.inl ⟨hw, UInt32.not_le.mp hc, if_neg hc⟩)
  · exact Or.inr (Or.inr ⟨hw, if_neg hw⟩)

end FixedWindow

end CgiWebServer
