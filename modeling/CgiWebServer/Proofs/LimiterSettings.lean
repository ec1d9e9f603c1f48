/-
Which `RateLimit` elements load into a limiter that is safe to run.

# The numbers

`load_int` takes what `stoi` reads, of either sign; a window is a product
of the number in front of its unit and the unit's seconds, and leaves
`int` where the number is large. A number that cannot be read falls back
to a default, one that is zero, negative or too large does not.

# What they do

An element that asks for an algorithm `load_limiter` does not know ends
the start-up. A window of no seconds is a division by zero at the first request, and a
limit below one is not looked at by the first request of a window, which
is admitted and told a difference of 32 bits (`fixedWindow_runs` is when
neither happens).
-/
import Mathlib.Data.List.TakeWhile
import CgiWebServer.Proofs.FixedWindow
import CgiWebServer.Config
import CgiWebServer.Limiter.Alone

namespace CgiWebServer

open Process

-- ============================================================ the numbers

/-- Every unit has a second. -/
theorem getSecondsMultiplier_pos (unit : Bytes) :
    1 ≤ getSecondsMultiplier unit := by
  unfold getSecondsMultiplier
  split_ifs <;> decide

/-- A number `load_int` takes or falls back from is at least one. -/
def AtLeastOne (intStr : Option Bytes) : Prop :=
  ∀ text n, intStr = some text → stoi text = some n → 1 ≤ n

theorem one_le_loadInt (intStr : Option Bytes) {fallback : Int}
    (hfallback : 1 ≤ fallback) :
    1 ≤ loadInt intStr fallback ↔ AtLeastOne intStr := by
  cases intStr with
  | none => exact iff_of_true hfallback fun text n h => by cases h
  | some text =>
      rw [show loadInt (some text) fallback = (stoi text).getD fallback
        from rfl, AtLeastOne]
      cases hread : stoi text with
      | none =>
          refine iff_of_true hfallback fun text' n h hn => ?_
          cases h
          cases hread.symm.trans hn
      | some n =>
          refine ⟨fun h text' n' heq hn => ?_, fun h => h text n rfl hread⟩
          cases heq
          cases hread.symm.trans hn
          exact h

/-- What it returns is an `int`. -/
theorem loadInt_le {intStr : Option Bytes} {fallback : Int}
    (hfallback : fallback ≤ 2147483647) :
    loadInt intStr fallback ≤ 2147483647 := by
  unfold loadInt
  cases intStr with
  | none => exact hfallback
  | some text =>
      cases hread : stoi text with
      | none =>
          simp only [hread, Option.getD_none]
          exact hfallback
      | some n =>
          simp only [hread, Option.getD_some]
          exact (stoi_range hread).2

/-- A refill rate is not negative. -/
theorem loadRefillRate_nonneg (buf : Option Bytes) :
    0 ≤ loadRefillRate buf := by
  cases buf with
  | none => decide
  | some rateStr =>
      simp only [loadRefillRate]
      split
      next => decide
      next hdigits =>
        refine Int.tdiv_nonneg ?_ (Int.le_of_lt (getSecondsMultiplier_pos _))
        have hne : rateStr.takeWhile isDigit ≠ [] := by
          intro hnil
          rw [hnil] at hdigits
          exact hdigits rfl
        rw [stoi_digits hne fun b hb => List.mem_takeWhile_imp hb]
        split
        · exact Int.natCast_nonneg _
        · exact Int.le_refl 0

-- ============================================================= the window

/-- The first word of a window's text. -/
def windowToken (data : Bytes) : Bytes :=
  (data.dropWhile isSpace).takeWhile fun b => !isSpace b

/-- The digits it begins with, and the unit behind them. -/
def windowDigits (data : Bytes) : Bytes :=
  (windowToken data).takeWhile isDigit

def windowUnit (data : Bytes) : Bytes :=
  ((windowToken data).drop (windowDigits data).length).map toLower

/-- The exact product of a window's number and its unit's seconds, where
the number can be read. -/
def windowProduct (data : Bytes) : Option Int :=
  (stoi (windowDigits data)).map (getSecondsMultiplier (windowUnit data) * ·)

/-- The window is the product as far as `int` goes, or the default. -/
theorem getSecondsFromTimeStr_eq (data : Bytes) :
    getSecondsFromTimeStr data
      = ((windowProduct data).map wrapInt).getD defaultWindowSeconds := by
  simp only [getSecondsFromTimeStr, windowProduct, windowDigits, windowUnit,
    windowToken]
  split
  next hempty =>
    rw [List.isEmpty_iff.mp hempty]
    rfl
  next =>
    cases stoi (((data.dropWhile isSpace).takeWhile
      fun b => !isSpace b).takeWhile isDigit) with
    | none => rfl
    | some value => rfl

/-- Where the product is computed, it is this. -/
theorem windowProduct_eq (data : Bytes) :
    windowProduct data
      = if windowDigits data = [] ∨ 2147483647 < digitsVal (windowDigits data)
        then none
        else some (getSecondsMultiplier (windowUnit data)
          * digitsVal (windowDigits data)) := by
  unfold windowProduct
  by_cases hnil : windowDigits data = []
  · rw [if_pos (Or.inl hnil), hnil]
    rfl
  · rw [stoi_digits hnil fun b hb => List.mem_takeWhile_imp hb]
    by_cases hle : digitsVal (windowDigits data) ≤ 2147483647
    · rw [if_pos hle, if_neg (not_or.mpr ⟨hnil, Nat.not_lt.mpr hle⟩)]
      rfl
    · rw [if_neg hle, if_pos (Or.inr (Nat.not_le.mp hle))]
      rfl

/-- A window whose number cannot be read, or is at least one and gives a
product within `int`. -/
def WindowInRange (data : Bytes) : Prop :=
  windowDigits data = [] ∨ 2147483647 < digitsVal (windowDigits data)
    ∨ 1 ≤ digitsVal (windowDigits data)
      ∧ getSecondsMultiplier (windowUnit data)
          * digitsVal (windowDigits data) ≤ 2147483647

/-- A window is loaded without overflow: the product is an `int`. -/
def LoadsExactly (data : Bytes) : Prop :=
  ∀ product, windowProduct data = some product →
    -2147483648 ≤ product ∧ product ≤ 2147483647

/-- A product that is an `int` is not wrapped. -/
theorem wrapInt_of_range {x : Int} (h : -2147483648 ≤ x ∧ x ≤ 2147483647) :
    wrapInt x = x := by
  unfold wrapInt
  rw [Int.emod_eq_of_lt (by omega) (by omega)]
  omega

/-- A window of at least a second, loaded without overflow. -/
theorem window_safe_iff (data : Bytes) :
    1 ≤ getSecondsFromTimeStr data ∧ LoadsExactly data
      ↔ WindowInRange data := by
  rw [getSecondsFromTimeStr_eq, LoadsExactly, windowProduct_eq, WindowInRange]
  by_cases hnone : windowDigits data = []
      ∨ 2147483647 < digitsVal (windowDigits data)
  · rw [if_pos hnone]
    refine iff_of_true ⟨by decide, fun product h => by cases h⟩ ?_
    exact or_assoc.mp (Or.inl hnone)
  · rw [if_neg hnone]
    have hunit := getSecondsMultiplier_pos (windowUnit data)
    obtain ⟨hdigits, hint⟩ := not_or.mp hnone
    simp only [hdigits, hint, false_or, Option.some.injEq, forall_eq',
      Option.map_some, Option.getD_some]
    constructor
    · intro h
      obtain ⟨hpos, hrange⟩ := h
      rw [wrapInt_of_range hrange] at hpos
      refine ⟨?_, hrange.2⟩
      by_contra hzero
      rw [Nat.lt_one_iff.mp (Nat.not_le.mp hzero)] at hpos
      simp at hpos
    · intro h
      obtain ⟨hpos, hle⟩ := h
      have hone : 1 * 1 ≤ getSecondsMultiplier (windowUnit data)
          * (digitsVal (windowDigits data) : Int) :=
        Int.mul_le_mul hunit (by omega) (by decide) (by omega)
      rw [wrapInt_of_range ⟨by omega, hle⟩]
      exact ⟨by omega, by omega, hle⟩

-- ============================================================ the process

/-- A loop is left with a word its body has computed, from the word it
was begun on or one that an exchange has read. -/
theorem exchangeLoop_left {body : UInt64 → Option UInt64} {repeatOn : Bool}
    {desired : UInt64} :
    ∀ (exchanges : List Exchange) (old : UInt64),
      exchangeLoop body repeatOn exchanges old = .left desired →
      ∃ word ∈ old :: exchanges.map (·.seen), body word = some desired := by
  intro exchanges
  induction exchanges with
  | nil =>
      intro old h
      unfold exchangeLoop at h
      split at h
      next => cases h
      next => cases h
  | cons x rest ih =>
      intro old h
      unfold exchangeLoop at h
      split at h
      next => cases h
      next computed hbody =>
        dsimp only at h
        split at h
        next old' hturn =>
          -- The next word is the one the exchange has seen, or still the
          -- old one.
          obtain ⟨word, hword, hdesired⟩ := ih old' h
          refine ⟨word, ?_, hdesired⟩
          rcases List.mem_cons.mp hword with rfl | hseen
          · unfold exchangeTurn at hturn
            split at hturn
            next =>
              injection hturn with hexpected
              split at hexpected <;> simp [← hexpected]
            next => cases hturn
          · simp only [List.map_cons, List.mem_cons]
            exact Or.inr (Or.inr hseen)
        next d hturn =>
          cases h
          unfold exchangeTurn at hturn
          split at hturn
          next => cases hturn
          next =>
            cases hturn
            exact ⟨old, List.mem_cons_self, hbody⟩

/-- The process of a fixed window runs as it should, whatever it meets:
it throws, waits, or goes on to `next` with a response that is told how
many requests are left, of a number below the limit. -/
def RunsSafely (s : FixedWindowSetting) : Prop :=
  ∀ env view next txn,
    (∃ e, fixedWindowProcess env view s next txn = (.error (.raised e), txn))
      ∨ fixedWindowProcess env view s next txn = (.error .pending, txn)
      ∨ ∃ response, fixedWindowProcess env view s next txn
            = next { txn with response := response }
          ∧ ∃ left : Int, 0 ≤ left ∧ left < s.maxRequests
            ∧ response.headers.lookup (bytes "X-RateLimit-Remaining")
              = some (toStr left)

/-- It does with at least a request and a second. -/
theorem fixedWindow_runs {s : FixedWindowSetting}
    (hwindow : 1 ≤ s.windowSeconds) (hpos : 1 ≤ s.maxRequests)
    (hint : s.maxRequests ≤ 2147483647) : RunsSafely s := by
  intro env view next txn
  have hzero : s.windowSeconds ≠ 0 := by omega
  unfold fixedWindowProcess
  cases hkey : s.makeKey.makeKey env.ip txn.request with
  | error e =>
      left
      simp only [Proc.bind_apply, Proc.get_apply, lift, hkey,
        Proc.ofExcept_error]
      exact ⟨e, rfl⟩
  | ok key =>
      simp only [Proc.bind_apply, Proc.get_apply, lift, hkey,
        Proc.ofExcept_ok, if_neg hzero]
      cases hloop : exchangeLoop (FixedWindow.attempt s
          (FixedWindow.thisWindowId s view.secs)) true view.exchanges
          view.load with
      -- A refusal and an unfinished loop are safe ends; only an admission
      -- tells a remainder.
      | threw old => exact Or.inl ⟨_, rfl⟩
      | running => exact Or.inr (Or.inl rfl)
      | left desired =>
          right
          right
          obtain ⟨old, -, hold⟩ := exchangeLoop_left _ _ hloop
          obtain ⟨-, hle, hcount⟩ :=
            FixedWindow.attempt_some hpos (by omega) hold
          have hmax := FixedWindow.toNat_maxRequests hpos (by omega)
          -- The subtraction does not wrap: the stored count is at most the
          -- limit.
          have hleft : (toU32 s.maxRequests - lower desired).toNat
              = s.maxRequests.toNat - (lower desired).toNat := by
            rw [UInt32.toNat_sub_of_le _ _
              (UInt32.le_iff_toNat_le.mpr (hmax ▸ hle)), hmax]
          refine ⟨_, rfl, ((toU32 s.maxRequests - lower desired).toNat : Int),
            Int.natCast_nonneg _, by omega, ?_⟩
          have hreset : bytes "X-RateLimit-Remaining"
              ≠ bytes "X-RateLimit-Reset" := by decide
          simp only [FixedWindow.admittedHeaders, List.foldl_cons,
            List.foldl_nil, Response.addHeader_headers]
          rw [AList.lookup_insert_ne hreset, AList.lookup_insert]

-- ======================================================== safe settings

/-- A limiter that is safe to run. -/
def SafeLimiter : Limiter → Prop
  | .fixedWindow s =>
      1 ≤ s.windowSeconds ∧ 1 ≤ s.maxRequests ∧ RunsSafely s
  | .tokenBucket s => 1 ≤ s.capacity ∧ 0 ≤ s.refillRate

/-- An element loads into one, without overflow. -/
structure LoadsSafely (algo : XMLElement) : Prop where
  limiter : ∃ l usesIp, loadLimiter algo = .ok (l, usesIp) ∧ SafeLimiter l
  exact : algorithmOf algo = .fixedWindow →
    ∀ window, algo.attributeOf (bytes "window") = some window →
      LoadsExactly window

/-- What it loads into is safe. -/
theorem LoadsSafely.safe {algo : XMLElement} {loaded : Limiter × Bool}
    (h : LoadsSafely algo) (hload : loadLimiter algo = .ok loaded) :
    SafeLimiter loaded.1 := by
  obtain ⟨l, usesIp, hload', hsafe⟩ := h.limiter
  cases hload.symm.trans hload'
  exact hsafe

/-- The attributes of an element that does. -/
def AttributesInRange (algo : XMLElement) : Prop :=
  match algorithmOf algo with
  | .fixedWindow =>
      AtLeastOne (algo.attributeOf (bytes "max_requests"))
        ∧ ∀ window, algo.attributeOf (bytes "window") = some window →
          WindowInRange window
  | .tokenBucket => AtLeastOne (algo.attributeOf (bytes "capacity"))
  | .unsupported => False

/-- The window of a setting, as it is read. -/
def windowSecondsOf (algo : XMLElement) : Int :=
  (algo.attributeOf (bytes "window")).elim defaultWindowSeconds
    getSecondsFromTimeStr

theorem loadFixedWindow_fst (algo : XMLElement) :
    (loadFixedWindow algo).1 = .fixedWindow
      { maxRequests :=
          loadInt (algo.attributeOf (bytes "max_requests")) defaultMaxRequests
        windowSeconds := windowSecondsOf algo
        makeKey := (getKeyFunc algo).1 } := by
  unfold windowSecondsOf
  simp only [loadFixedWindow]
  cases algo.attributeOf (bytes "window") with
  | none => rfl
  | some window => rfl

/-- A fixed window that is loaded is safe exactly if its attributes are
in range. -/
theorem loadFixedWindow_safe_iff (algo : XMLElement) :
    (SafeLimiter (loadFixedWindow algo).1
        ∧ ∀ window, algo.attributeOf (bytes "window") = some window →
          LoadsExactly window)
      ↔ AtLeastOne (algo.attributeOf (bytes "max_requests"))
        ∧ ∀ window, algo.attributeOf (bytes "window") = some window →
          WindowInRange window := by
  have hmax := one_le_loadInt (algo.attributeOf (bytes "max_requests"))
    (show 1 ≤ defaultMaxRequests by decide)
  have hint : loadInt (algo.attributeOf (bytes "max_requests"))
      defaultMaxRequests ≤ 2147483647 := loadInt_le (by decide)
  rw [loadFixedWindow_fst]
  constructor
  · intro h
    obtain ⟨⟨hwindow, hrequests, -⟩, hexact⟩ := h
    refine ⟨hmax.mp hrequests, fun window hattr => ?_⟩
    refine (window_safe_iff window).mp ⟨?_, hexact window hattr⟩
    simpa only [windowSecondsOf, hattr, Option.elim_some] using hwindow
  · intro h
    obtain ⟨hrequests, hrange⟩ := h
    have hwindow : 1 ≤ windowSecondsOf algo := by
      unfold windowSecondsOf
      cases hattr : algo.attributeOf (bytes "window") with
      | none => decide
      | some window =>
          exact ((window_safe_iff window).mpr (hrange window hattr)).1
    refine ⟨⟨hwindow, hmax.mpr hrequests,
      fixedWindow_runs hwindow (hmax.mpr hrequests) hint⟩, ?_⟩
    intro window hattr
    exact ((window_safe_iff window).mpr (hrange window hattr)).2

/-- An element loads into a limiter that is safe to run exactly if its
algorithm is known and its numbers are in range: a limit or a capacity
that is read is at least one, and so is a window's number, whose product
is an `int`. -/
theorem loadsSafely_iff (algo : XMLElement) :
    LoadsSafely algo ↔ AttributesInRange algo := by
  have hload := loadLimiter_eq algo
  unfold AttributesInRange
  cases halgo : algorithmOf algo with
  | fixedWindow =>
      rw [halgo] at hload
      refine Iff.trans ?_ (loadFixedWindow_safe_iff algo)
      exact ⟨fun h => ⟨h.safe hload, h.exact halgo⟩,
        fun h => ⟨⟨_, _, hload, h.1⟩, fun _ => h.2⟩⟩
  | tokenBucket =>
      rw [halgo] at hload
      have hcapacity := one_le_loadInt (algo.attributeOf (bytes "capacity"))
        (show 1 ≤ defaultTokenCapacity by decide)
      refine Iff.trans ?_ hcapacity
      refine ⟨fun h => (h.safe hload).1, fun h => ⟨?_, fun hfixed => ?_⟩⟩
      · exact ⟨_, _, hload, h, loadRefillRate_nonneg _⟩
      · cases halgo.symm.trans hfixed
  | unsupported =>
      -- the start-up ends in `load_limiter`
      rw [halgo] at hload
      refine iff_of_false (fun h => ?_) id
      obtain ⟨l, usesIp, hload', -⟩ := h.limiter
      cases hload.symm.trans hload'

/-- A window of no seconds, a limit of no requests, and an algorithm
that is not known. -/
def zeroWindow : XMLElement :=
  .mk (bytes "RateLimit") [(bytes "window", bytes "0s")] []

def zeroRequests : XMLElement :=
  .mk (bytes "RateLimit") [(bytes "max_requests", bytes "0")] []

def slidingWindow : XMLElement :=
  .mk (bytes "RateLimit") [(bytes "algorithm", bytes "sliding")] []

/-- The first divides by zero at its first request; the second admits its
first request and tells the client that 4294967295 are left; the third
ends the start-up. -/
theorem zero_settings_loaded :
    loadLimiter zeroWindow
        = .ok (.fixedWindow { windowSeconds := 0 }, true)
      ∧ (fixedWindowProcess {} {} { windowSeconds := 0 } (pure ())
          { router := Router.initial }).1 = .error .crash
      ∧ ¬ LoadsSafely zeroWindow
      ∧ loadLimiter zeroRequests
        = .ok (.fixedWindow { maxRequests := 0 }, true)
      ∧ (FixedWindow.serve { maxRequests := 0 } ∅
          { secs := 60, spurious := [false, false] }).2.header
            remainingHeader = some (toStr 4294967295)
      ∧ ¬ LoadsSafely zeroRequests
      ∧ loadLimiter slidingWindow = .error .badFormat
      ∧ ¬ LoadsSafely slidingWindow := by
  have hwindow : loadLimiter zeroWindow
      = .ok (.fixedWindow { windowSeconds := 0 }, true) :=
    congrArg (fun n => Except.ok (Limiter.fixedWindow
      { windowSeconds := n }, true))
      (show getSecondsFromTimeStr (bytes "0s") = 0 by decide)
  have hrequests : loadLimiter zeroRequests
      = .ok (.fixedWindow { maxRequests := 0 }, true) := rfl
  have hsliding : loadLimiter slidingWindow = .error .badFormat := rfl
  refine ⟨hwindow, ?_, fun h => ?_, hrequests, ?_, fun h => ?_, hsliding,
    fun h => ?_⟩
  · rfl
  · exact absurd (h.safe hwindow).1 (by decide)
  · decide
  · exact absurd (h.safe hrequests).2.1 (by decide)
  · obtain ⟨l, usesIp, hload, -⟩ := h.limiter
    cases hsliding.symm.trans hload

end CgiWebServer
