/-
`mw::TokenBucketLimiter` (Middleware.cpp): the loop body and the numbers
around it.
-/
import CgiWebServer.Limiter.Loop
import CgiWebServer.Limiter.Key

namespace CgiWebServer

/-- `cfg::TokenBucketSetting`, with its defaults. -/
structure TokenBucketSetting where
  capacity : Int := 60
  refillRate : Int := 2
  makeKey : KeyFunc := .ip
  deriving DecidableEq

namespace TokenBucket

variable (s : TokenBucketSetting)

/-- The word `findBucket` creates: a full bucket, stamped now. The upper
half is the tokens, the lower half the refill stamp. -/
def newBucket (now : UInt32) : UInt64 :=
  (toU64 s.capacity <<< 32) ||| now.toUInt64

/-- `elapsed`: the seconds since the stamp, none if the clock reading is
not past it. -/
def elapsed (secs : UInt32) (old : UInt64) : UInt32 :=
  if secs > lower old then secs - lower old else 0

/-- `new_tokens`: the refilled tokens, computed in 32 bits, widened,
and capped. -/
def newTokens (secs : UInt32) (old : UInt64) : UInt64 :=
  let tokens :=
    (upper old + toU32 s.refillRate * elapsed secs old).toUInt64
  if tokens > toU64 s.capacity then toU64 s.capacity else tokens

/-- `new_refill`. -/
def newRefill (secs : UInt32) (old : UInt64) : UInt32 :=
  if elapsed secs old > 0 then secs else lower old

/-- The loop body: the desired word, or the throw. -/
def attempt (secs : UInt32) (old : UInt64) : Option UInt64 :=
  let tokens := newTokens s secs old
  if tokens < 1 then none
  else some (pack (tokens - 1).toUInt32 (newRefill secs old))

/-- `retry_after` and `delay`, the wait until the refill's next second. -/
def delay (secs refill : UInt32) : UInt32 :=
  if refill + 1 > secs then refill + 1 - secs else 0

/-- The exception of a rejection, at the word the body threw at. -/
def rejection (ip : Bytes) (request : Request) (secs : UInt32)
    (old : UInt64) : Exn :=
  .http (.mk' .tooManyRequests
    (bytes "client=" ++ ip ++ bytes " has exceeded rate limit on ["
      ++ methodEnumToStr request.method ++ bytes " " ++ request.endpointUrl
      ++ bytes "] (" ++ toStr s.refillRate ++ bytes " tokens/s cap="
      ++ toStr s.capacity ++ bytes " tokens)")
    ((∅ : Headers).insert (bytes "Retry-After")
      (toStr (delay secs (newRefill secs old)).toNat)))

/-- The headers an admitted response gets, from the desired word the
loop was left with and the system clock's seconds. -/
def admittedHeaders (secs : UInt32) (systemSecs : Int) (desired : UInt64) :
    List (Bytes × Bytes) :=
  let wait := delay secs (lower desired)
  [(bytes "X-RateLimit-Limit", toStr s.capacity),
   (bytes "X-RateLimit-Remaining", toStr (upper desired).toNat),
   (bytes "X-RateLimit-Reset", toStr (systemSecs + wait.toNat)),
   (bytes "Retry-After", toStr wait.toNat)]

-- ============================================ the numbers of a turn

/-- The elapsed seconds are what the stamp moves by. -/
theorem elapsed_eq (secs : UInt32) (old : UInt64) :
    (newRefill secs old).toNat
      = (lower old).toNat + (elapsed secs old).toNat := by
  unfold newRefill elapsed
  by_cases hlater : secs > lower old
  · have hle : lower old ≤ secs := UInt32.le_of_lt hlater
    have hlt : (lower old).toNat < secs.toNat :=
      UInt32.lt_iff_toNat_lt.mp hlater
    have hsub := UInt32.toNat_sub_of_le secs (lower old) hle
    have hmoved : secs - lower old > 0 := by
      rw [gt_iff_lt, UInt32.lt_iff_toNat_lt, hsub, UInt32.toNat_zero]
      omega
    rw [if_pos hlater, if_pos hmoved, hsub]
    omega
  · rw [if_neg hlater, if_neg (by decide), UInt32.toNat_zero]
    omega

/-- They are the seconds since the stamp, where the clock is not behind
it. -/
theorem toNat_elapsed (secs : UInt32) (old : UInt64) :
    (elapsed secs old).toNat = secs.toNat - (lower old).toNat := by
  unfold elapsed
  by_cases hlater : secs > lower old
  · rw [if_pos hlater,
      UInt32.toNat_sub_of_le _ _ (UInt32.le_of_lt hlater)]
  · have hle := UInt32.le_iff_toNat_le.mp (UInt32.not_lt.mp hlater)
    rw [if_neg hlater, UInt32.toNat_zero]
    omega

section Capacity

variable {s}
variable (hcap0 : 0 ≤ s.capacity) (hcap : s.capacity < 2147483648)
include hcap0 hcap

theorem toNat_capacity : (toU64 s.capacity).toNat = s.capacity.toNat :=
  toNat_toU64 (by omega) (by omega)

/-- The refilled tokens: the sum of 32 bits, capped. -/
theorem toNat_newTokens (secs : UInt32) (old : UInt64) :
    (newTokens s secs old).toNat
      = min s.capacity.toNat (((upper old).toNat
          + (toU32 s.refillRate).toNat * (elapsed secs old).toNat)
            % 4294967296) := by
  have hcapacity := toNat_capacity hcap0 hcap
  have hsum : (upper old + toU32 s.refillRate
        * elapsed secs old).toUInt64.toNat
      = ((upper old).toNat
          + (toU32 s.refillRate).toNat * (elapsed secs old).toNat)
            % 4294967296 := by
    rw [UInt32.toNat_toUInt64, UInt32.toNat_add, UInt32.toNat_mul]
    exact Nat.add_mod_mod _ _ _
  simp only [newTokens]
  split
  next hover =>
    have hlt := UInt64.lt_iff_toNat_lt.mp hover
    rw [hcapacity, hsum] at hlt
    rw [hcapacity, Nat.min_eq_left (Nat.le_of_lt hlt)]
  next hwithin =>
    have hle := UInt64.le_iff_toNat_le.mp (UInt64.not_lt.mp hwithin)
    rw [hcapacity, hsum] at hle
    rw [hsum, Nat.min_eq_right hle]

private theorem newBucket_eq (now : UInt32) :
    newBucket s now = pack (toU64 s.capacity).toUInt32 now := by
  have hwide : (toU64 s.capacity).toUInt32.toUInt64
      = toU64 s.capacity := by
    apply UInt64.toNat_inj.mp
    rw [UInt32.toNat_toUInt64, UInt64.toNat_toUInt32,
      toNat_capacity hcap0 hcap]
    exact Nat.mod_eq_of_lt (by omega)
  rw [newBucket, pack, hwide]

/-- A new bucket is full. -/
theorem upper_newBucket (now : UInt32) :
    (upper (newBucket s now)).toNat = s.capacity.toNat := by
  rw [newBucket_eq hcap0 hcap, upper_pack, UInt64.toNat_toUInt32,
    toNat_capacity hcap0 hcap]
  exact Nat.mod_eq_of_lt (by omega)

/-- It is stamped now. -/
theorem lower_newBucket (now : UInt32) :
    (lower (newBucket s now)).toNat = now.toNat := by
  rw [newBucket_eq hcap0 hcap, lower_pack]

end Capacity

end TokenBucket

end CgiWebServer
