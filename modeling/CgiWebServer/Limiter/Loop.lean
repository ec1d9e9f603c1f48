/-
What the two limiters share: the packed word, the conversions of the
settings' `int`s, and the compare-exchange loop.

Both limiters keep their whole state for a key in one
`std::atomic<uint64_t>` with a 32-bit field in each half, and both
update it by a `do … while` around `compare_exchange_weak`. The loop is
one definition here. What differs is its body and the value of the
exchange on which it goes round: `TokenBucketLimiter` repeats on failure
(`while(!…)`), `FixedWindowLimiter` repeats on success (`while(…)`).
-/
import Mathlib.Data.Nat.Bitwise
import CgiWebServer.Basic

namespace CgiWebServer

-- ==================================================== the packed word

/-- `(uint64_t(hi) << 32) | lo`. -/
def pack (hi lo : UInt32) : UInt64 := (hi.toUInt64 <<< 32) ||| lo.toUInt64

/-- `uint32_t(w >> 32)`. -/
def upper (w : UInt64) : UInt32 := (w >>> 32).toUInt32

/-- `uint32_t(w)`. -/
def lower (w : UInt64) : UInt32 := w.toUInt32

private theorem shift_amount : UInt64.toNat 32 % 64 = 32 := rfl

theorem toNat_pack (hi lo : UInt32) :
    (pack hi lo).toNat = hi.toNat * 2 ^ 32 + lo.toNat := by
  have hhi := hi.toNat_lt
  have hlo := lo.toNat_lt
  rw [pack, UInt64.toNat_or, UInt64.toNat_shiftLeft,
    UInt32.toNat_toUInt64, UInt32.toNat_toUInt64, shift_amount,
    Nat.shiftLeft_eq, Nat.mod_eq_of_lt (by omega), ← Nat.shiftLeft_eq,
    ← Nat.shiftLeft_add_eq_or_of_lt hlo]

@[simp] theorem upper_pack (hi lo : UInt32) : upper (pack hi lo) = hi := by
  have hhi := hi.toNat_lt
  have hlo := lo.toNat_lt
  apply UInt32.toNat_inj.mp
  rw [upper, UInt64.toNat_toUInt32, UInt64.toNat_shiftRight, toNat_pack,
    shift_amount, Nat.shiftRight_eq_div_pow]
  omega

@[simp] theorem lower_pack (hi lo : UInt32) : lower (pack hi lo) = lo := by
  have hlo := lo.toNat_lt
  apply UInt32.toNat_inj.mp
  rw [lower, UInt64.toNat_toUInt32, toNat_pack]
  omega

-- ================================================== integer conversions

/-- The conversion of an `int` or `int64_t` to `uint32_t`. -/
def toU32 (x : Int) : UInt32 := UInt32.ofNat (x % 4294967296).toNat

/-- The conversion of an `int` to `uint64_t`. -/
def toU64 (x : Int) : UInt64 :=
  UInt64.ofNat (x % 18446744073709551616).toNat

theorem toNat_toU32 {x : Int} (h0 : 0 ≤ x) (h1 : x < 4294967296) :
    (toU32 x).toNat = x.toNat := by
  rw [toU32, Int.emod_eq_of_lt h0 h1]
  exact UInt32.toNat_ofNat_of_lt' (by
    rw [UInt32.size]
    omega)

theorem toNat_toU64 {x : Int} (h0 : 0 ≤ x)
    (h1 : x < 18446744073709551616) : (toU64 x).toNat = x.toNat := by
  rw [toU64, Int.emod_eq_of_lt h0 h1]
  exact UInt64.toNat_ofNat_of_lt' (by
    rw [UInt64.size]
    omega)

-- ========================================= the compare-exchange loop

/-- The outcome of one `compare_exchange_weak`: whether it stored, and
the word it read into `expected` when it did not. -/
structure Exchange where
  stored : Bool
  seen : UInt64
  deriving DecidableEq, Repr

/-- `compare_exchange_weak(old, desired)` on a word: it stores where the
word is the expected one, unless it fails spuriously. -/
def compareExchangeWeak (word old desired : UInt64) (spurious : Bool) :
    UInt64 × Exchange :=
  if word = old ∧ spurious = false then (desired, ⟨true, word⟩)
  else (word, ⟨false, word⟩)

/-- How a turn of the loop ends: it goes round with the expected word as
the exchange left it, or it is left. -/
inductive Turn
  | round (old : UInt64)
  | left (desired : UInt64)
  deriving DecidableEq, Repr

/-- A turn of the `do … while`, after its body: it goes round when the
exchange's result is `repeatOn`. A failed exchange refreshes `old`. -/
def exchangeTurn (repeatOn : Bool) (old desired : UInt64) (x : Exchange) :
    Turn :=
  if x.stored = repeatOn then .round (if x.stored then old else x.seen)
  else .left desired

/-- How a loop stands: its body threw at a word, it was left with the
last desired word, or it has not ended. -/
inductive LoopEnd
  | threw (old : UInt64)
  | left (desired : UInt64)
  | running
  deriving DecidableEq, Repr

/-- The `do … while` over the results of its exchanges: `body` computes
the desired word or throws. -/
def exchangeLoop (body : UInt64 → Option UInt64) (repeatOn : Bool) :
    List Exchange → UInt64 → LoopEnd
  | exchanges, old =>
      match body old with
      | none => .threw old
      | some desired =>
          match exchanges with
          | [] => .running
          | x :: rest =>
              match exchangeTurn repeatOn old desired x with
              | .round old' => exchangeLoop body repeatOn rest old'
              | .left d => .left d

end CgiWebServer
