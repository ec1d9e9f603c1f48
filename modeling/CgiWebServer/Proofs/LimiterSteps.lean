/-
A limiter in a transaction, on what the words of a request that runs
alone show it: `process` does what `serve` says, and then `next`.

`serve` and `process` share the loop body and the loop; what is shown
here is that the exchanges a transaction meets in its `LimitView` are
those `exchangesAlone` makes against the word of its key.
-/
import CgiWebServer.Limiter.Alone
import CgiWebServer.Pipeline

namespace CgiWebServer

open Process

/-- What a verdict means in a pipeline. -/
def Verdict.resume (next : Act Unit) : Verdict → Act Unit
  | .admitted headers => do
      modifyResponse fun r =>
        headers.foldl (fun r h => r.addHeader h.1 h.2) r
      next
  | .noKey e => throwExn e
  | .rejected e => throwExn e
  | .running => Proc.raise .pending
  | .crash => Proc.raise .crash

/-- What a request alone meets at a word. -/
def aloneView (body : UInt64 → Option UInt64) (repeatOn : Bool) (c : Call)
    (word : UInt64) : LimitView where
  secs := c.secs
  systemSecs := c.systemSecs
  load := word
  exchanges := (exchangesAlone body repeatOn c.spurious word word).1

variable {env : Env} {txn : Txn} {c : Call}

/-- `FixedWindowLimiter::process` does what `serve` says. -/
theorem fixedWindowProcess_alone (s : FixedWindowSetting) (words : Words)
    (hip : env.ip = c.ip) (hrequest : txn.request = c.request) {key : Bytes}
    (hkey : s.makeKey.makeKey c.ip c.request = .ok key) (next : Act Unit) :
    fixedWindowProcess env
        (aloneView (FixedWindow.attempt s (FixedWindow.thisWindowId s c.secs))
          true c ((words.lookup key).getD 0)) s next txn
      = (FixedWindow.serve s words c).2.resume next txn := by
  unfold fixedWindowProcess FixedWindow.serve
  simp only [Proc.bind_apply, Proc.get_apply, hip, hrequest, lift, hkey,
    Proc.ofExcept_ok]
  by_cases hzero : s.windowSeconds = 0
  · simp only [if_pos hzero]
    rfl
  · simp only [if_neg hzero, aloneView, loopAlone]
    cases exchangeLoop
        (FixedWindow.attempt s (FixedWindow.thisWindowId s c.secs)) true
        (exchangesAlone
          (FixedWindow.attempt s (FixedWindow.thisWindowId s c.secs)) true
          c.spurious ((words.lookup key).getD 0)
          ((words.lookup key).getD 0)).1 ((words.lookup key).getD 0) with
    | threw old => rfl
    | left desired => rfl
    | running => rfl

/-- `TokenBucketLimiter::process` does what `serve` says. -/
theorem tokenBucketProcess_alone (s : TokenBucketSetting) (words : Words)
    (hip : env.ip = c.ip) (hrequest : txn.request = c.request) {key : Bytes}
    (hkey : s.makeKey.makeKey c.ip c.request = .ok key) (next : Act Unit) :
    tokenBucketProcess env
        (aloneView (TokenBucket.attempt s (toU32 c.secs)) false c
          ((words.lookup key).getD
            (TokenBucket.newBucket s (toU32 c.created)))) s next txn
      = (TokenBucket.serve s words c).2.resume next txn := by
  unfold tokenBucketProcess TokenBucket.serve
  simp only [Proc.bind_apply, Proc.get_apply, hip, hrequest, lift, hkey,
    Proc.ofExcept_ok, aloneView, loopAlone]
  cases exchangeLoop (TokenBucket.attempt s (toU32 c.secs)) false
      (exchangesAlone (TokenBucket.attempt s (toU32 c.secs)) false c.spurious
        ((words.lookup key).getD
          (TokenBucket.newBucket s (toU32 c.created)))
        ((words.lookup key).getD
          (TokenBucket.newBucket s (toU32 c.created)))).1
      ((words.lookup key).getD
        (TokenBucket.newBucket s (toU32 c.created))) with
  | threw old => rfl
  | left desired => rfl
  | running => rfl

end CgiWebServer
