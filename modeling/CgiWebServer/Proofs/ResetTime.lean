/-
When a limit is renewed, and what `X-RateLimit-Reset` says of it.

Both limiters keep time on the steady clock, in 32 bits. What a response
should tell is the first second of that clock at which the word it left
gives its key more again, `IsLeast` of the seconds that do, moved over to
the system clock. `TokenBucketLimiter` moves it; `FixedWindowLimiter`
prints the end of the window as the steady clock will read it.
-/
import Mathlib.Order.Bounds.Basic
import CgiWebServer.Proofs.LimiterSettings
import CgiWebServer.Proofs.RetryAfter
import CgiWebServer.Proofs.TokenBucket

namespace CgiWebServer

open Process

-- ============================================================= the limiters

def resetHeader : Bytes := bytes "X-RateLimit-Reset"

/-- A setting that limits. -/
def Limiter.Valid : Limiter → Prop
  | .fixedWindow s => FixedWindow.Valid s
  | .tokenBucket s => TokenBucket.Valid s

/-- The loop body, at a clock reading. -/
def Limiter.attempt (secs : Int) : Limiter → UInt64 → Option UInt64
  | .fixedWindow s =>
      FixedWindow.attempt s (FixedWindow.thisWindowId s secs)
  | .tokenBucket s => TokenBucket.attempt s (toU32 secs)

/-- The headers of an admitted response. -/
def Limiter.admittedHeaders (view : LimitView) (desired : UInt64) :
    Limiter → List (Bytes × Bytes)
  | .fixedWindow s =>
      FixedWindow.admittedHeaders s
        (FixedWindow.thisWindowId s view.secs) desired
  | .tokenBucket s =>
      TokenBucket.admittedHeaders s (toU32 view.secs) view.systemSecs
        desired

/-- An admitted response, with the headers it gets. -/
def Limiter.withHeaders (l : Limiter) (view : LimitView) (desired : UInt64)
    (response : Response) : Response :=
  (l.admittedHeaders view desired).foldl (fun r h => r.addHeader h.1 h.2)
    response

/-- A second at which a word gives its key more than it holds: its
window is over, or there is a token more. -/
def Limiter.Renews (word : UInt64) (t : Int) : Limiter → Prop
  | .fixedWindow s => upper word ≠ FixedWindow.thisWindowId s t
  | .tokenBucket s =>
      (upper word).toNat < (TokenBucket.newTokens s (toU32 t) word).toNat

-- ============================================================= what is told

/-- The response tells when the word the request has left is renewed, by
the system clock: so long after the request as the first second that
renews it, which is not before it, is after the clock. -/
def Limiter.TellsReset (l : Limiter) (view : LimitView) (left : UInt64)
    (response : Response) : Prop :=
  ∃ t, IsLeast {t | view.secs ≤ t ∧ l.Renews left t} t
    ∧ response.headers.lookup resetHeader
        = some (toStr (view.systemSecs + (t - view.secs)))

/-- The end of the window at a second. -/
def FixedWindow.windowEnd (s : FixedWindowSetting) (secs : Int) : Int :=
  (secs.tdiv s.windowSeconds + 1) * s.windowSeconds

/-- Where it does. A fixed window takes the two clocks to read the same,
but for the multiple of `2^32` seconds that its end is cut by. A bucket
that is never refilled has no such second, nor has one in the last second
that 32 bits count. -/
def Limiter.ClocksFit (view : LimitView) (found : UInt64) :
    Limiter → Prop
  | .fixedWindow s =>
      view.systemSecs = view.secs
        - 4294967296 * (FixedWindow.windowEnd s view.secs / 4294967296)
  | .tokenBucket s =>
      1 ≤ s.refillRate ∧ toU32 view.secs ≠ 4294967295
        ∧ lower found ≠ 4294967295

-- ============================================================== the process

variable {view : LimitView} {word desired : UInt64}

/-- A process throws or waits, or goes on to `next` with a response, on
what `P` says of the word its body was last at, which it has loaded or an
exchange has read, of the word it has left, and of the response. -/
def Limiter.Settles (l : Limiter) (env : Env) (view : LimitView)
    (next : Act Unit) (txn : Txn)
    (P : UInt64 → UInt64 → Response → Prop) : Prop :=
  (∃ stop, l.process env view next txn = (.error stop, txn))
    ∨ ∃ word ∈ view.load :: view.exchanges.map (·.seen),
        ∃ desired response,
          l.attempt view.secs word = some desired
            ∧ l.process env view next txn
              = next { txn with response := response }
            ∧ P word desired response

theorem fixedWindow_settles (s : FixedWindowSetting) (env : Env)
    (view : LimitView) (next : Act Unit) (txn : Txn) :
    (Limiter.fixedWindow s).Settles env view next txn fun _ desired r =>
      r = (Limiter.fixedWindow s).withHeaders view desired txn.response := by
  simp only [Limiter.Settles, Limiter.process, fixedWindowProcess]
  cases hkey : s.makeKey.makeKey env.ip txn.request with
  | error e =>
      left
      simp only [Proc.bind_apply, Proc.get_apply, lift, hkey,
        Proc.ofExcept_error]
      exact ⟨_, rfl⟩
  | ok key =>
      simp only [Proc.bind_apply, Proc.get_apply, lift, hkey,
        Proc.ofExcept_ok]
      by_cases hzero : s.windowSeconds = 0
      · rw [if_pos hzero]
        exact Or.inl ⟨_, rfl⟩
      · rw [if_neg hzero]
        cases hloop : exchangeLoop (FixedWindow.attempt s
            (FixedWindow.thisWindowId s view.secs)) true view.exchanges
            view.load with
        | threw old => exact Or.inl ⟨_, rfl⟩
        | running => exact Or.inl ⟨_, rfl⟩
        | left desired =>
            obtain ⟨word, hword, hdesired⟩ := exchangeLoop_left _ _ hloop
            exact Or.inr ⟨word, hword, desired, _, hdesired, rfl, rfl⟩

theorem tokenBucket_settles (s : TokenBucketSetting) (env : Env)
    (view : LimitView) (next : Act Unit) (txn : Txn) :
    (Limiter.tokenBucket s).Settles env view next txn fun _ desired r =>
      r = (Limiter.tokenBucket s).withHeaders view desired txn.response := by
  simp only [Limiter.Settles, Limiter.process, tokenBucketProcess]
  cases hkey : s.makeKey.makeKey env.ip txn.request with
  | error e =>
      left
      simp only [Proc.bind_apply, Proc.get_apply, lift, hkey,
        Proc.ofExcept_error]
      exact ⟨_, rfl⟩
  | ok key =>
      simp only [Proc.bind_apply, Proc.get_apply, lift, hkey,
        Proc.ofExcept_ok]
      cases hloop : exchangeLoop (TokenBucket.attempt s (toU32 view.secs))
          false view.exchanges view.load with
      | threw old => exact Or.inl ⟨_, rfl⟩
      | running => exact Or.inl ⟨_, rfl⟩
      | left desired =>
          obtain ⟨word, hword, hdesired⟩ := exchangeLoop_left _ _ hloop
          exact Or.inr ⟨word, hword, desired, _, hdesired, rfl, rfl⟩

theorem Limiter.settles (l : Limiter) (env : Env) (view : LimitView)
    (next : Act Unit) (txn : Txn) :
    l.Settles env view next txn fun _ desired r =>
      r = l.withHeaders view desired txn.response := by
  cases l with
  | fixedWindow s => exact fixedWindow_settles s env view next txn
  | tokenBucket s => exact tokenBucket_settles s env view next txn

-- ========================================================= the fixed window

namespace FixedWindow

variable {s : FixedWindowSetting}

/-- A conversion to 32 bits, as a remainder. -/
theorem toNat_toU32_emod (x : Int) :
    ((toU32 x).toNat : Int) = x % 4294967296 := by
  have hnonneg : 0 ≤ x % 4294967296 := Int.emod_nonneg _ (by decide)
  have hlt : x % 4294967296 < 4294967296 := Int.emod_lt_of_pos _ (by decide)
  rw [toU32, UInt32.toNat_ofNat_of_lt' (by
    rw [UInt32.size]
    omega)]
  exact Int.toNat_of_nonneg hnonneg

/-- The reset time is the end of the window, cut to 32 bits. -/
theorem toNat_resetTime (secs : Int) :
    ((resetTime s (thisWindowId s secs)).toNat : Int)
      = windowEnd s secs % 4294967296 := by
  unfold resetTime thisWindowId windowEnd
  rw [UInt32.toNat_add, UInt32.toNat_mul]
  push_cast
  rw [toNat_toU32_emod, toNat_toU32_emod, Int.add_mul, Int.one_mul]
  simp only [Int.emod_add_emod, Int.add_emod_emod, ← Int.mul_emod]

section Window

variable (hs : Valid s) {secs : Int} (hsecs : 0 ≤ secs)
include hs hsecs

/-- The window of a second ends behind it, and it ends there. -/
theorem windowEnd_isLeast :
    IsLeast {t | secs ≤ t ∧ thisWindowId s secs ≠ thisWindowId s t}
      (windowEnd s secs) := by
  have hpos := hs.window_pos
  have hdiv : ∀ {t : Int}, 0 ≤ t →
      t.tdiv s.windowSeconds = t / s.windowSeconds :=
    fun h => Int.tdiv_eq_ediv_of_nonneg h
  have hafter : secs < windowEnd s secs := by
    rw [windowEnd, hdiv hsecs]
    exact Int.lt_ediv_add_one_mul_self _ (by omega)
  refine ⟨⟨Int.le_of_lt hafter, fun hsame => ?_⟩, ?_⟩
  · have hnext : (windowEnd s secs).tdiv s.windowSeconds
        = secs.tdiv s.windowSeconds + 1 := by
      rw [hdiv (by omega), windowEnd, Int.mul_ediv_cancel _ (by omega)]
    have hcut := congrArg (fun id : UInt32 => (id.toNat : Int)) hsame
    simp only [thisWindowId, toNat_toU32_emod, hnext] at hcut
    omega
  · rintro t ⟨hle, hchanged⟩
    by_contra hbefore
    refine hchanged ?_
    have hstart : secs / s.windowSeconds * s.windowSeconds ≤ secs :=
      Int.ediv_mul_le _ (by omega)
    have hlow : secs / s.windowSeconds ≤ t / s.windowSeconds :=
      Int.ediv_le_ediv (by omega) hle
    have hhigh : t / s.windowSeconds < secs / s.windowSeconds + 1 := by
      rw [windowEnd, hdiv hsecs, Int.not_le] at hbefore
      exact (Int.ediv_lt_iff_lt_mul (by omega)).mpr hbefore
    rw [thisWindowId, thisWindowId, hdiv hsecs, hdiv (by omega)]
    congr 1
    omega

/-- The fixed window tells the end of the window where the clocks fit. -/
theorem tellsReset_iff {view : LimitView} (hview : view.secs = secs)
    {word desired : UInt64}
    (h : attempt s (thisWindowId s secs) word = some desired)
    (response : Response) :
    (Limiter.fixedWindow s).TellsReset view desired
        ((Limiter.fixedWindow s).withHeaders view desired response)
      ↔ (Limiter.fixedWindow s).ClocksFit view word := by
  subst hview
  have hpos := hs.window_pos
  have hwindow : upper desired = thisWindowId s view.secs :=
    (attempt_some hs.max_pos (by have := hs.max_int; omega) h).1
  have hleast := windowEnd_isLeast hs hsecs
  have hlookup : ((Limiter.fixedWindow s).withHeaders view desired
      response).headers.lookup resetHeader
        = some (toStr (windowEnd s view.secs % 4294967296)) := by
    rw [← toNat_resetTime]
    simp only [Limiter.withHeaders, Limiter.admittedHeaders, admittedHeaders,
      List.foldl_cons, List.foldl_nil, Response.addHeader_headers]
    exact AList.lookup_insert _
  simp only [Limiter.TellsReset, Limiter.Renews, Limiter.ClocksFit,
    hlookup, hwindow, Option.some.injEq, toStr_inj]
  constructor
  · rintro ⟨t, ht, htold⟩
    rw [ht.unique hleast] at htold
    omega
  · intro hclocks
    exact ⟨windowEnd s view.secs, hleast, by omega⟩

end Window

end FixedWindow

-- ========================================================= the token bucket

namespace TokenBucket

variable {s : TokenBucketSetting}

/-- The stamp a request leaves is the later one of its clock and the
stamp it found. -/
theorem toNat_lower_of_attempt {secs : UInt32} {word desired : UInt64}
    (h : attempt s secs word = some desired) :
    (lower desired).toNat = max secs.toNat (lower word).toNat := by
  rw [lower_of_attempt h, elapsed_eq, toNat_elapsed]
  omega

section Room

variable (hs : Valid s) {word : UInt64}
  (hroom : (upper word).toNat + 1 ≤ s.capacity.toNat)
include hs hroom

/-- Where nothing is refilled there is no token more. -/
theorem newTokens_of_no_refill {secs : UInt32}
    (hnone : (toU32 s.refillRate).toNat
      * (secs.toNat - (lower word).toNat) = 0) :
    (newTokens s secs word).toNat = (upper word).toNat := by
  have hpos := hs.capacity_pos
  have hlt := (upper word).toNat_lt
  rw [toNat_newTokens (by omega) hs.capacity_int, toNat_elapsed, hnone,
    Nat.add_zero, Nat.mod_eq_of_lt hlt]
  omega

/-- The second behind the stamp gives the rate, as far as the bucket has
room, which it has for one. -/
theorem newTokens_behind_stamp (hrate : 1 ≤ s.refillRate) {secs : UInt32}
    (hsecs : secs.toNat = (lower word).toNat + 1) :
    (upper word).toNat < (newTokens s secs word).toNat := by
  have hpos := hs.capacity_pos
  have hint := hs.capacity_int
  have hrateInt := hs.rate_int
  have hrate' : (toU32 s.refillRate).toNat = s.refillRate.toNat :=
    toNat_toU32 (by omega) (by omega)
  have hsecond : secs.toNat - (lower word).toNat = 1 := by omega
  rw [toNat_newTokens (by omega) hint, toNat_elapsed, hsecond, hrate',
    Nat.mul_one]
  omega

/-- The seconds up to the stamp renew nothing. -/
theorem stamp_lt_of_renews {t : Int}
    (h : (Limiter.tokenBucket s).Renews word t) :
    (lower word).toNat < (toU32 t).toNat := by
  by_contra hle
  have hnone : (toU32 s.refillRate).toNat
      * ((toU32 t).toNat - (lower word).toNat) = 0 := by
    rw [Nat.sub_eq_zero_of_le (Nat.not_lt.mp hle), Nat.mul_zero]
  have hsame := newTokens_of_no_refill hs hroom hnone
  simp only [Limiter.Renews, hsame] at h
  omega

/-- No second renews the word of a bucket that is not refilled. -/
theorem rate_pos_of_renews {t : Int}
    (h : (Limiter.tokenBucket s).Renews word t) : 1 ≤ s.refillRate := by
  have hnonneg := hs.rate_nonneg
  by_contra hzero
  have hrate : s.refillRate = 0 := by omega
  have hnone : (toU32 s.refillRate).toNat
      * ((toU32 t).toNat - (lower word).toNat) = 0 := by
    rw [hrate]
    exact Nat.zero_mul _
  have hsame := newTokens_of_no_refill hs hroom hnone
  simp only [Limiter.Renews, hsame] at h
  omega

/-- The first second that renews is the one behind the stamp, which there
is unless the stamp is the last one of 32 bits. -/
theorem behind_stamp_isLeast (hrate : 1 ≤ s.refillRate) {secs : Int}
    (hclock : (toU32 secs).toNat ≤ (lower word).toNat)
    (hlast : (lower word).toNat + 1 < 4294967296) :
    IsLeast {t | secs ≤ t ∧ (Limiter.tokenBucket s).Renews word t}
      (secs + ((lower word).toNat + 1 - (toU32 secs).toNat : Nat)) := by
  have hsecs := FixedWindow.toNat_toU32_emod secs
  refine ⟨⟨by omega, newTokens_behind_stamp hs hroom hrate ?_⟩, ?_⟩
  · have hcut := FixedWindow.toNat_toU32_emod
      (secs + ((lower word).toNat + 1 - (toU32 secs).toNat : Nat))
    omega
  · rintro t ⟨hle, hrenews⟩
    have hpast := stamp_lt_of_renews hs hroom hrenews
    have hcut := FixedWindow.toNat_toU32_emod t
    omega

end Room

/-- The token bucket tells the second behind its stamp where the clocks
fit. -/
theorem tellsReset_iff (hs : Valid s) {view : LimitView}
    {word desired : UInt64}
    (h : attempt s (toU32 view.secs) word = some desired)
    (response : Response) :
    (Limiter.tokenBucket s).TellsReset view desired
        ((Limiter.tokenBucket s).withHeaders view desired response)
      ↔ (Limiter.tokenBucket s).ClocksFit view word := by
  have hpos := hs.capacity_pos
  have hroom := (attempt_some (by omega) hs.capacity_int h).1
  have hstamp := toNat_lower_of_attempt h
  have hlast : ∀ x : UInt32, x ≠ 4294967295 ↔ x.toNat + 1 < 4294967296 := by
    intro x
    have hlt := x.toNat_lt
    rw [ne_eq, ← UInt32.toNat_inj]
    show ¬ x.toNat = 4294967295 ↔ _
    omega
  -- The time told is that of the second behind the stamp.
  have hlookup : ((Limiter.tokenBucket s).withHeaders view desired
      response).headers.lookup resetHeader
        = some (toStr (view.systemSecs
            + (delay (toU32 view.secs) (lower desired)).toNat)) := by
    have hretry : resetHeader ≠ bytes "Retry-After" := by decide
    simp only [Limiter.withHeaders, Limiter.admittedHeaders, admittedHeaders,
      List.foldl_cons, List.foldl_nil, Response.addHeader_headers]
    rw [AList.lookup_insert_ne hretry]
    exact AList.lookup_insert _
  simp only [Limiter.TellsReset, Limiter.ClocksFit, hlookup,
    Option.some.injEq, toStr_inj, hlast]
  constructor
  -- A second that renews the word has a rate and is behind the stamp.
  · rintro ⟨t, ⟨⟨-, hrenews⟩, -⟩, -⟩
    have hpast := stamp_lt_of_renews hs hroom hrenews
    have hlt := (toU32 t).toNat_lt
    exact ⟨rate_pos_of_renews hs hroom hrenews, by omega, by omega⟩
  · rintro ⟨hrate, hnow, hfound⟩
    have hnext : (lower desired + 1).toNat = (lower desired).toNat + 1 := by
      rw [UInt32.toNat_add, UInt32.toNat_one]
      omega
    have hlater : lower desired + 1 > toU32 view.secs := by
      rw [gt_iff_lt, UInt32.lt_iff_toNat_lt, hnext]
      omega
    have hdelay : (delay (toU32 view.secs) (lower desired)).toNat
        = (lower desired).toNat + 1 - (toU32 view.secs).toNat := by
      rw [delay, if_pos hlater,
        UInt32.toNat_sub_of_le _ _ (UInt32.le_of_lt hlater), hnext]
    refine ⟨_, behind_stamp_isLeast hs hroom hrate (by omega) (by omega),
      ?_⟩
    omega

end TokenBucket

-- ================================================================= the law

/-- An admitted response tells when the limit is renewed exactly where
the clocks fit. -/
theorem reset_is_told_iff (l : Limiter) (hl : l.Valid) (env : Env)
    (view : LimitView) (hsecs : 0 ≤ view.secs) (next : Act Unit)
    (txn : Txn) :
    l.Settles env view next txn fun word desired response =>
      (l.TellsReset view desired response ↔ l.ClocksFit view word) := by
  rcases l.settles env view next txn with hstop
    | ⟨word, hword, desired, response, hdesired, hrun, rfl⟩
  · exact Or.inl hstop
  · refine Or.inr ⟨word, hword, desired, _, hdesired, hrun, ?_⟩
    cases l with
    | fixedWindow s =>
        exact FixedWindow.tellsReset_iff hl hsecs rfl hdesired _
    | tokenBucket s => exact TokenBucket.tellsReset_iff hl hdesired _

/-- A request 100 seconds after the machine was started, in November
2023. -/
def afterBoot : LimitView where
  secs := 100
  systemSecs := 1700000000
  exchanges := [⟨true, 0⟩, ⟨false, pack 1 1⟩]

/-- The default token bucket admits in that second, and tells when it is
refilled. -/
theorem reset_is_told_bucket :
    ∃ desired response,
      (Limiter.tokenBucket {}).process {} afterBoot (pure ())
          { router := Router.initial }
        = (.ok (), { router := Router.initial, response := response })
      ∧ (Limiter.tokenBucket {}).TellsReset afterBoot desired response := by
  have hfit : ∀ word ∈ afterBoot.load :: afterBoot.exchanges.map (·.seen),
      (Limiter.tokenBucket {}).ClocksFit afterBoot word := by
    simp only [afterBoot, List.map_cons, List.map_nil, List.forall_mem_cons]
    refine ⟨?_, ?_, ?_, fun _ h => absurd h List.not_mem_nil⟩
    all_goals exact ⟨by decide, by decide, by decide⟩
  rcases reset_is_told_iff (.tokenBucket {})
    ⟨by decide, by decide, by decide, by decide⟩ {} afterBoot (by decide)
    (pure ()) { router := Router.initial } with ⟨stop, hstop⟩
    | ⟨word, hword, desired, response, -, hrun, htold⟩
  · have hreturns : ((Limiter.tokenBucket {}).process {} afterBoot (pure ())
        { router := Router.initial }).1 = .ok () := by
      decide +kernel
    rw [hstop] at hreturns
    cases hreturns
  · exact ⟨desired, response, hrun, htold.mpr (hfit word hword)⟩

/-- The default fixed window tells the client that its window ends in
1970. -/
theorem reset_by_steady_clock :
    ∃ response,
      (Limiter.fixedWindow {}).process {} afterBoot (pure ())
          { router := Router.initial }
        = (.ok (), { router := Router.initial, response := response })
      ∧ response.headers.lookup resetHeader = some (toStr 120)
      ∧ ¬ (Limiter.fixedWindow {}).TellsReset afterBoot (pack 1 1)
          response := by
  have hs : FixedWindow.Valid {} := ⟨by decide, by decide, by decide⟩
  have hbody : FixedWindow.attempt {}
      (FixedWindow.thisWindowId {} afterBoot.secs) 0 = some (pack 1 1) := by
    decide
  refine ⟨_, rfl, rfl, fun htold => ?_⟩
  have hfit : (1700000000 : Int)
      = 100 - 4294967296 * (FixedWindow.windowEnd {} 100 / 4294967296) :=
    (FixedWindow.tellsReset_iff hs (by decide) rfl hbody {}).mp htold
  exact absurd hfit (by decide)

end CgiWebServer
