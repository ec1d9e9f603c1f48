/-
The token bucket against the textbook one.

# The reference

`Level` is the bucket over the integers: a level and the second it was
brought up to. A request refills it, by the rate for every elapsed
second and up to the capacity, and takes one token if there is one.

# The simulation

`Sim` ties the stored word to a level. The stored stamp may lag behind
the reference's second only at a rate of zero, when the lag refills
nothing: a rejection leaves the word as it is, and at a positive rate it
means that no second has passed (`sim_rejected`).

# The defect

The refilled sum is computed in 32 bits before it is widened. Where the
exact sum reaches 2^32 the wrapped one may be below the capacity, and
then the bucket is not as full as it should be; `Fits` is when it is.
-/
import Mathlib.Data.List.Induction
import CgiWebServer.Limiter.Alone

namespace CgiWebServer

namespace TokenBucket

-- ========================================================= the reference

/-- The textbook bucket. -/
structure Level where
  level : Int
  since : Int
  deriving DecidableEq

namespace Level

variable (capacity rate : Int)

/-- The exact sum of a refill. -/
def sum (b : Level) (now : Int) : Int := b.level + rate * (now - b.since)

/-- The level a request finds. -/
def refilled (b : Level) (now : Int) : Int := min capacity (b.sum rate now)

/-- A request: it is admitted where there is a token, and takes it. -/
def take (b : Level) (now : Int) : Level × Bool :=
  if 1 ≤ b.refilled capacity rate now then
    (⟨b.refilled capacity rate now - 1, now⟩, true)
  else (⟨b.refilled capacity rate now, now⟩, false)

end Level

-- ======================================================== the sequences

/-- A setting that limits, of `int`s. -/
structure Valid (s : TokenBucketSetting) : Prop where
  capacity_pos : 1 ≤ s.capacity
  capacity_int : s.capacity < 2147483648
  rate_nonneg : 0 ≤ s.refillRate
  rate_int : s.refillRate < 2147483648

/-- Requests of one key one after the other; each exchange may fail
spuriously any number of times before it stores. -/
structure Sequential (s : TokenBucketSetting) (key : Bytes)
    (calls : List Call) : Prop where
  one_key : ∀ c ∈ calls, s.makeKey.makeKey c.ip c.request = .ok key
  in_range : ∀ c ∈ calls,
    0 ≤ c.created ∧ c.created ≤ c.secs ∧ c.secs < 4294967296
  in_order : calls.Pairwise fun a b => a.secs ≤ b.secs
  stores : ∀ c ∈ calls, ∃ failures rest,
    c.spurious = List.replicate failures true ++ false :: rest

variable (s : TokenBucketSetting)

/-- The level a request finds: the first one finds a full bucket. -/
def levelFor (b : Option Level) (c : Call) : Level :=
  b.getD ⟨s.capacity, c.created⟩

/-- The reference, after a sequence of requests. -/
def levelAfter (calls : List Call) : Option Level :=
  calls.foldl (fun b c => some ((levelFor s b c).take s.capacity
    s.refillRate c.secs).1) none

theorem levelAfter_snoc (calls : List Call) (c : Call) :
    levelAfter s (calls ++ [c])
      = some ((levelFor s (levelAfter s calls) c).take s.capacity
          s.refillRate c.secs).1 := by
  rw [levelAfter, List.foldl_append]
  rfl

/-- The limiter answers a request as the reference does: it admits the
same, tells the reference's level as what remains, and leaves the word
of a rejected request as it was. -/
structure Agrees (key : Bytes) (before : List Call) (c : Call) : Prop where
  verdict : (serve s (wordsAfter (serve s) before) c).2.isAdmitted
    = ((levelFor s (levelAfter s before) c).take s.capacity
        s.refillRate c.secs).2
  remaining : (serve s (wordsAfter (serve s) before) c).2.isAdmitted = true →
    (serve s (wordsAfter (serve s) before) c).2.header remainingHeader
      = some (toStr ((levelFor s (levelAfter s before) c).take s.capacity
          s.refillRate c.secs).1.level)
  unchanged : (serve s (wordsAfter (serve s) before) c).2.isAdmitted = false →
    (∃ e, (serve s (wordsAfter (serve s) before) c).2 = .rejected e)
      ∧ (serve s (wordsAfter (serve s) before) c).1.lookup key
        = (wordsAfter (serve s) before).lookup key

/-- The sum of a refill is below 2^32, or wraps to no less than the
capacity. -/
def Fits (b : Level) (now : Int) : Prop :=
  b.sum s.refillRate now < 4294967296
    ∨ s.capacity ≤ b.sum s.refillRate now % 4294967296

instance (b : Level) (now : Int) : Decidable (Fits s b now) :=
  inferInstanceAs (Decidable (_ ∨ _))

-- ======================================================== the simulation

/-- A stored word that stands for a level. -/
structure Sim (word : UInt64) (b : Level) : Prop where
  level : ((upper word).toNat : Int) = b.level
  level_le : b.level ≤ s.capacity
  stamp_le : ((lower word).toNat : Int) ≤ b.since
  stamp : s.refillRate = 0 ∨ ((lower word).toNat : Int) = b.since

variable {s}

/-- A new bucket stands for a full one. -/
theorem sim_newBucket (hs : Valid s) {created : Int}
    (h : 0 ≤ created ∧ created < 4294967296) :
    Sim s (newBucket s (toU32 created)) ⟨s.capacity, created⟩ := by
  have hpos := hs.capacity_pos
  have hupper := upper_newBucket (s := s) (by omega) hs.capacity_int
    (toU32 created)
  have hlower := lower_newBucket (s := s) (by omega) hs.capacity_int
    (toU32 created)
  rw [toNat_toU32 h.1 h.2] at hlower
  refine ⟨?_, Int.le_refl _, ?_, Or.inr ?_⟩
  · rw [hupper]
    exact Int.toNat_of_nonneg (by omega)
  · rw [hlower]
    exact Int.le_of_eq (Int.toNat_of_nonneg h.1)
  · rw [hlower]
    exact Int.toNat_of_nonneg h.1

/-- The tokens the code finds: the exact sum, wrapped and capped. -/
theorem newTokens_of_sim (hs : Valid s) {word : UInt64} {b : Level}
    (h : Sim s word b) {now : Int} (hnow : b.since ≤ now)
    (hrange : now < 4294967296) :
    ((newTokens s (toU32 now) word).toNat : Int)
      = min s.capacity (b.sum s.refillRate now % 4294967296) := by
  have hpos := hs.capacity_pos
  have hrate := hs.rate_nonneg
  have hrate' := hs.rate_int
  have hlow := h.stamp_le
  have hlevel := h.level
  have hsecs : (toU32 now).toNat = now.toNat :=
    toNat_toU32 (by omega) hrange
  have hrateNat : (toU32 s.refillRate).toNat = s.refillRate.toNat :=
    toNat_toU32 hrate (by omega)
  -- The lag of the stamp refills nothing.
  have hproduct : ((s.refillRate.toNat * (elapsed (toU32 now) word).toNat
      : Nat) : Int) = s.refillRate * (now - b.since) := by
    rw [Int.natCast_mul, Int.toNat_of_nonneg hrate, toNat_elapsed, hsecs]
    rcases h.stamp with hzero | hstamp
    · rw [hzero, Int.zero_mul, Int.zero_mul]
    · congr 1
      omega
  have htokens := toNat_newTokens (s := s) (by omega) hs.capacity_int
    (toU32 now) word
  rw [htokens, hrateNat]
  have hsum : ((((upper word).toNat + s.refillRate.toNat
      * (elapsed (toU32 now) word).toNat) % 4294967296 : Nat) : Int)
      = b.sum s.refillRate now % 4294967296 := by
    rw [Int.natCast_emod, Int.natCast_add, hproduct, hlevel]
    rfl
  rw [← hsum]
  omega

/-- Where the sum fits, they are the level the reference finds. -/
theorem min_wrapped_iff {capacity sum : Int} (hpos : 1 ≤ capacity)
    (hcapacity : capacity < 2147483648) (hsum : 0 ≤ sum) :
    min capacity (sum % 4294967296) = min capacity sum
      ↔ sum < 4294967296 ∨ capacity ≤ sum % 4294967296 := by
  constructor
  · intro heq
    by_cases hlt : sum < 4294967296
    · exact Or.inl hlt
    · right
      omega
  · intro h
    rcases h with hlt | hle
    · rw [Int.emod_eq_of_lt hsum hlt]
    · omega

/-- The word of an admission stands for the level that is left: its
stamp is the clock's. -/
theorem sim_admitted {word desired : UInt64} {b : Level}
    (h : Sim s word b) {now : Int} (hnow : b.since ≤ now)
    (hrange : now < 4294967296) {level : Int}
    (hupper : ((upper desired).toNat : Int) = level)
    (hle : level ≤ s.capacity)
    (hlower : lower desired = newRefill (toU32 now) word) :
    Sim s desired ⟨level, now⟩ := by
  have hstamp := h.stamp_le
  have hsecs : (toU32 now).toNat = now.toNat :=
    toNat_toU32 (by omega) hrange
  have hmoved := elapsed_eq (toU32 now) word
  rw [toNat_elapsed, hsecs, ← hlower] at hmoved
  have hclock : ((lower desired).toNat : Int) = now := by omega
  exact ⟨hupper, hle, Int.le_of_eq hclock, Or.inr hclock⟩

/-- A rejection finds nothing stored and nothing refilled: where the rate
is positive, no second has passed since the stamp. -/
theorem sim_rejected (hs : Valid s) {word : UInt64} {b : Level}
    (h : Sim s word b) {now : Int} (hnow : b.since ≤ now)
    (hempty : b.refilled s.capacity s.refillRate now = 0) :
    Sim s word ⟨0, now⟩ := by
  have hpos := hs.capacity_pos
  have hlevel := h.level
  have hstamp := h.stamp_le
  have hrefill : 0 ≤ s.refillRate * (now - b.since) :=
    Int.mul_nonneg hs.rate_nonneg (by omega)
  have hsum : b.level + s.refillRate * (now - b.since) = 0 := by
    unfold Level.refilled Level.sum at hempty
    omega
  refine ⟨?_, ?_, Int.le_trans hstamp hnow, ?_⟩
  · show ((upper word).toNat : Int) = 0
    omega
  · show (0 : Int) ≤ s.capacity
    omega
  · rcases h.stamp with hzero | hown
    · exact Or.inl hzero
    · have hproduct : s.refillRate * (now - b.since) = 0 := by omega
      rcases Int.mul_eq_zero.mp hproduct with hzero | hsame
      · exact Or.inl hzero
      · right
        show ((lower word).toNat : Int) = now
        omega

-- ============================================================ one request

/-- The word a request finds under its key, created if it is missing. -/
def wordFor (s : TokenBucketSetting) (words : Words) (key : Bytes)
    (c : Call) : UInt64 :=
  (words.lookup key).getD (newBucket s (toU32 c.created))

/-- A request that finds no token is rejected and leaves its word. -/
theorem serve_of_empty {words : Words} {c : Call} {key : Bytes}
    (hkey : s.makeKey.makeKey c.ip c.request = .ok key)
    (hfound : (newTokens s (toU32 c.secs) (wordFor s words key c)).toNat
      = 0) :
    serve s words c
      = (words.insert key (wordFor s words key c),
          .rejected (rejection s c.ip c.request (toU32 c.secs)
            (wordFor s words key c))) := by
  have hlt : newTokens s (toU32 c.secs) (wordFor s words key c) < 1 := by
    rw [UInt64.lt_iff_toNat_lt, hfound]
    decide
  have hattempt : attempt s (toU32 c.secs) (wordFor s words key c)
      = none := by
    simp only [attempt, if_pos hlt]
  have hloop : loopAlone (attempt s (toU32 c.secs)) false c.spurious
      (wordFor s words key c)
        = (.threw (wordFor s words key c), wordFor s words key c) :=
    loopAlone_of_none hattempt _
  unfold wordFor at hloop ⊢
  simp only [serve, hkey, hloop]

/-- A request that finds a token is admitted; it leaves one less, at a
stamp that is the clock's where that is ahead. -/
theorem serve_of_token {words : Words} {c : Call} {key : Bytes}
    (hcap0 : 0 ≤ s.capacity) (hcap : s.capacity < 2147483648)
    (hkey : s.makeKey.makeKey c.ip c.request = .ok key)
    (hfound : 1 ≤ (newTokens s (toU32 c.secs)
      (wordFor s words key c)).toNat)
    (hstores : ∃ failures rest,
      c.spurious = List.replicate failures true ++ false :: rest) :
    ∃ desired,
      (upper desired).toNat + 1
          = (newTokens s (toU32 c.secs) (wordFor s words key c)).toNat
        ∧ lower desired
          = newRefill (toU32 c.secs) (wordFor s words key c)
        ∧ serve s words c
          = (words.insert key desired,
              .admitted (admittedHeaders s (toU32 c.secs) c.systemSecs
                desired)) := by
  have hle := toNat_newTokens hcap0 hcap (toU32 c.secs)
    (wordFor s words key c)
  have hone : ¬ newTokens s (toU32 c.secs) (wordFor s words key c) < 1 := by
    rw [UInt64.lt_iff_toNat_lt, UInt64.toNat_one]
    omega
  have hattempt : attempt s (toU32 c.secs) (wordFor s words key c)
      = some (pack
          (newTokens s (toU32 c.secs) (wordFor s words key c) - 1).toUInt32
          (newRefill (toU32 c.secs) (wordFor s words key c))) := by
    simp only [attempt, if_neg hone]
  obtain ⟨failures, rest, hlist⟩ := hstores
  -- The exchanges that fail by chance leave the word alone; the first that
  -- does not stores.
  have hloop := loopAlone_onFailure hattempt failures rest
  refine ⟨pack
    (newTokens s (toU32 c.secs) (wordFor s words key c) - 1).toUInt32
    (newRefill (toU32 c.secs) (wordFor s words key c)),
    ?_, lower_pack _ _, ?_⟩
  · rw [upper_pack, UInt64.toNat_toUInt32,
      UInt64.toNat_sub_of_le _ _ (UInt64.not_lt.mp hone), UInt64.toNat_one,
      Nat.mod_eq_of_lt (by omega)]
    omega
  · unfold wordFor at hloop ⊢
    simp only [serve, hkey, hlist, hloop]

-- ========================================================== one step each

/-- What a request finds: its word stands for its level, which is not
ahead of its clock. -/
structure Found (s : TokenBucketSetting) (key : Bytes) (before : List Call)
    (c : Call) : Prop where
  sim : Sim s (wordFor s (wordsAfter (serve s) before) key c)
    (levelFor s (levelAfter s before) c)
  since_le : (levelFor s (levelAfter s before) c).since ≤ c.secs

/-- The limiter answers as the reference does, and the word it leaves
stands for the level that leaves. -/
def Follows (s : TokenBucketSetting) (key : Bytes) (before : List Call)
    (c : Call) : Prop :=
  Agrees s key before c
    ∧ ∃ word b,
      (wordsAfter (serve s) (before ++ [c])).lookup key = some word
        ∧ levelAfter s (before ++ [c]) = some b
        ∧ Sim s word b ∧ b.since = c.secs

section Step

variable {key : Bytes} {before : List Call} {c : Call}
variable (hs : Valid s) (hcalls : Sequential s key (before ++ [c]))
  (hfound : Found s key before c)
include hs hcalls hfound

/-- The tokens the code finds, and the sum is not negative. -/
private theorem found_tokens :
    ((newTokens s (toU32 c.secs)
        (wordFor s (wordsAfter (serve s) before) key c)).toNat : Int)
      = min s.capacity
          ((levelFor s (levelAfter s before) c).sum s.refillRate c.secs
            % 4294967296)
    ∧ 0 ≤ (levelFor s (levelAfter s before) c).sum s.refillRate c.secs := by
  have hrange := hcalls.in_range c (by simp)
  refine ⟨newTokens_of_sim hs hfound.sim hfound.since_le hrange.2.2, ?_⟩
  have hlevel := hfound.sim.level
  have hsince := hfound.since_le
  exact Int.add_nonneg (by omega)
    (Int.mul_nonneg hs.rate_nonneg (by omega))

omit hcalls in
/-- A request that finds nothing finds a word that is stored: a new one
is full. -/
private theorem lookup_of_empty
    (hempty : (levelFor s (levelAfter s before) c).refilled s.capacity
      s.refillRate c.secs = 0) :
    (wordsAfter (serve s) before).lookup key
      = some (wordFor s (wordsAfter (serve s) before) key c) := by
  have hpos := hs.capacity_pos
  have hsim := sim_rejected hs hfound.sim hfound.since_le hempty
  have hzero : ((upper (wordFor s (wordsAfter (serve s) before) key
      c)).toNat : Int) = 0 := hsim.level
  unfold wordFor at hzero ⊢
  cases hword : (wordsAfter (serve s) before).lookup key with
  | none =>
      rw [hword, Option.getD_none, upper_newBucket (by omega)
        hs.capacity_int] at hzero
      omega
  | some word => rfl

/-- A request that finds as many tokens as the reference, and one of
them at least, is admitted by both. -/
private theorem follows_of_token
    (hrefilled : ((newTokens s (toU32 c.secs)
        (wordFor s (wordsAfter (serve s) before) key c)).toNat : Int)
      = (levelFor s (levelAfter s before) c).refilled s.capacity
          s.refillRate c.secs)
    (hone : 1 ≤ (levelFor s (levelAfter s before) c).refilled s.capacity
      s.refillRate c.secs) : Follows s key before c := by
  have hpos := hs.capacity_pos
  have hkey := hcalls.one_key c (by simp)
  have htake : (levelFor s (levelAfter s before) c).take s.capacity
      s.refillRate c.secs
    = (⟨(levelFor s (levelAfter s before) c).refilled s.capacity
        s.refillRate c.secs - 1, c.secs⟩, true) := by
    rw [Level.take, if_pos hone]
  -- Code and reference agree on the refilled bucket, so both find a token.
  have htoken : 1 ≤ (newTokens s (toU32 c.secs)
      (wordFor s (wordsAfter (serve s) before) key c)).toNat := by
    omega
  obtain ⟨desired, hupper, hlower, hserve⟩ := serve_of_token
    (by omega) hs.capacity_int hkey htoken (hcalls.stores c (by simp))
  have hleft : ((upper desired).toNat : Int)
      = (levelFor s (levelAfter s before) c).refilled s.capacity
          s.refillRate c.secs - 1 := by
    omega
  have hcap : (levelFor s (levelAfter s before) c).refilled s.capacity
      s.refillRate c.secs ≤ s.capacity := Int.min_le_left _ _
  unfold Follows
  rw [wordsAfter_snoc, levelAfter_snoc]
  refine ⟨⟨?_, fun _ => ?_, fun hno => ?_⟩, desired, _, ?_,
    congrArg _ (congrArg Prod.fst htake), ?_, rfl⟩
  · rw [hserve, htake]
    rfl
  · rw [hserve, htake]
    exact congrArg (fun n : Int => some (toStr n)) hleft
  · rw [hserve] at hno
    cases hno
  · rw [hserve, AList.lookup_insert]
  · exact sim_admitted hfound.sim hfound.since_le
      (hcalls.in_range c (by simp)).2.2 hleft (by omega) hlower

/-- One that finds none is rejected by both. -/
private theorem follows_of_empty
    (hrefilled : ((newTokens s (toU32 c.secs)
        (wordFor s (wordsAfter (serve s) before) key c)).toNat : Int)
      = (levelFor s (levelAfter s before) c).refilled s.capacity
          s.refillRate c.secs)
    (hone : ¬ 1 ≤ (levelFor s (levelAfter s before) c).refilled s.capacity
      s.refillRate c.secs) : Follows s key before c := by
  have hkey := hcalls.one_key c (by simp)
  have htake : (levelFor s (levelAfter s before) c).take s.capacity
      s.refillRate c.secs
    = (⟨(levelFor s (levelAfter s before) c).refilled s.capacity
        s.refillRate c.secs, c.secs⟩, false) := by
    rw [Level.take, if_neg hone]
  -- Code and reference agree on the refilled bucket, so neither finds a
  -- token.
  have hnone : (newTokens s (toU32 c.secs)
      (wordFor s (wordsAfter (serve s) before) key c)).toNat = 0 := by
    omega
  have hserve := serve_of_empty hkey hnone
  have hempty : (levelFor s (levelAfter s before) c).refilled s.capacity
      s.refillRate c.secs = 0 := by
    omega
  -- A refusal stores nothing, while the reference moves its stamp; the two
  -- stay related as neither has a token.
  have hsim := sim_rejected hs hfound.sim hfound.since_le hempty
  rw [← hempty] at hsim
  unfold Follows
  rw [wordsAfter_snoc, levelAfter_snoc]
  refine ⟨⟨?_, fun hyes => ?_, fun _ => ⟨?_, ?_⟩⟩, _, _, ?_,
    congrArg _ (congrArg Prod.fst htake), hsim, rfl⟩
  · rw [hserve, htake]
    rfl
  · rw [hserve] at hyes
    cases hyes
  · rw [hserve]
    exact ⟨_, rfl⟩
  · rw [hserve, AList.lookup_insert]
    exact (lookup_of_empty hs hfound hempty).symm
  · rw [hserve, AList.lookup_insert]

/-- Where the sum fits, the limiter answers as the reference does. -/
theorem follows_of_fits
    (hfits : Fits s (levelFor s (levelAfter s before) c) c.secs) :
    Follows s key before c := by
  obtain ⟨htokens, hsum⟩ := found_tokens hs hcalls hfound
  rw [(min_wrapped_iff hs.capacity_pos hs.capacity_int hsum).mpr hfits]
    at htokens
  by_cases hone : 1 ≤ (levelFor s (levelAfter s before) c).refilled
      s.capacity s.refillRate c.secs
  · exact follows_of_token hs hcalls hfound htokens hone
  · exact follows_of_empty hs hcalls hfound htokens hone

/-- Where it does not, the limiter finds fewer tokens than the reference,
which finds a full bucket: it rejects, or tells less. -/
theorem fits_of_agrees (hagrees : Agrees s key before c) :
    Fits s (levelFor s (levelAfter s before) c) c.secs := by
  have hpos := hs.capacity_pos
  have hkey := hcalls.one_key c (by simp)
  obtain ⟨htokens, hsum⟩ := found_tokens hs hcalls hfound
  -- The word's sum has wrapped: the reference finds a full bucket, the
  -- limiter fewer tokens.
  by_contra hunfit
  have hover : 4294967296
      ≤ (levelFor s (levelAfter s before) c).sum s.refillRate c.secs
      ∧ (levelFor s (levelAfter s before) c).sum s.refillRate c.secs
          % 4294967296 < s.capacity := by
    unfold Fits at hunfit
    omega
  have hcap := hs.capacity_int
  have hfull : (levelFor s (levelAfter s before) c).refilled s.capacity
      s.refillRate c.secs = s.capacity := Int.min_eq_left (by omega)
  have htake : (levelFor s (levelAfter s before) c).take s.capacity
        s.refillRate c.secs = (⟨s.capacity - 1, c.secs⟩, true) := by
    rw [Level.take, hfull, if_pos hpos]
  have hadmitted := hagrees.verdict
  rw [htake] at hadmitted
  have htold := hagrees.remaining hadmitted
  rw [htake] at htold
  by_cases hzero : (newTokens s (toU32 c.secs)
      (wordFor s (wordsAfter (serve s) before) key c)).toNat = 0
  · have hserve := serve_of_empty hkey hzero
    rw [hserve] at hadmitted
    cases hadmitted
  · obtain ⟨desired, hupper, -, hserve⟩ := serve_of_token
      (by omega) hcap hkey (Nat.pos_of_ne_zero hzero)
      (hcalls.stores c (by simp))
    have hleft : some (toStr (upper desired).toNat)
        = some (toStr (s.capacity - 1)) := by
      rw [hserve] at htold
      exact htold
    -- Two numbers that print alike are the same.
    have hsame : (upper desired).toNat = (s.capacity - 1).toNat := by
      have hprint := congrArg digitsVal (Option.some.inj hleft)
      rw [digitsVal_toStr, ← Int.toNat_of_nonneg
        (show 0 ≤ s.capacity - 1 by omega), digitsVal_toStr] at hprint
      exact hprint
    omega

end Step

-- ============================================================= sequences

section Run

variable {key : Bytes} (hs : Valid s)
include hs

omit hs in
theorem Sequential.before {calls : List Call} {c : Call}
    (h : Sequential s key (calls ++ [c])) : Sequential s key calls where
  one_key d hd := h.one_key d (List.mem_append_left _ hd)
  in_range d hd := h.in_range d (List.mem_append_left _ hd)
  in_order := (List.pairwise_append.mp h.in_order).1
  stores d hd := h.stores d (List.mem_append_left _ hd)

/-- Where every sum so far fits, the next request finds the word of its
level. -/
theorem found_of_fits {calls : List Call} {c : Call}
    (hcalls : Sequential s key (calls ++ [c]))
    (hfits : Throughout (fun before c =>
      Fits s (levelFor s (levelAfter s before) c) c.secs) calls) :
    Found s key calls c := by
  induction calls using List.reverseRecOn generalizing c with
  | nil =>
      have hrange := hcalls.in_range c (by simp)
      exact ⟨sim_newBucket hs ⟨hrange.1, by omega⟩, hrange.2.1⟩
  | append_singleton calls d ih =>
      obtain ⟨hold, hlast⟩ := throughout_snoc.mp hfits
      obtain ⟨-, word, b, hword, hlevel, hsim, hsince⟩ := follows_of_fits hs
        hcalls.before (ih hcalls.before hold) hlast
      have horder : d.secs ≤ c.secs :=
        (List.pairwise_append.mp hcalls.in_order).2.2 d (by simp) c
          (by simp)
      refine ⟨?_, ?_⟩
      · rw [wordFor, hword, hlevel]
        exact hsim
      · rw [hlevel]
        show b.since ≤ c.secs
        omega

/-- The limiter answers every request as the textbook bucket does exactly
when no refill's sum reaches 2^32 with a remainder below the capacity. -/
theorem refines_reference_iff {calls : List Call}
    (hcalls : Sequential s key calls) :
    Throughout (Agrees s key) calls
      ↔ Throughout (fun before c =>
          Fits s (levelFor s (levelAfter s before) c) c.secs) calls := by
  induction calls using List.reverseRecOn with
  | nil =>
      refine iff_of_true ?_ ?_ <;>
        exact fun before c after hsplit => absurd hsplit (by simp)
  | append_singleton calls c ih =>
      rw [throughout_snoc, throughout_snoc, ih hcalls.before]
      refine and_congr_right fun hfits => ?_
      have hfound := found_of_fits hs hcalls hfits
      exact ⟨fits_of_agrees hs hcalls hfound,
        fun h => (follows_of_fits hs hcalls hfound h).1⟩

end Run

/-- One token, and a rate of 2^30 a second. -/
def fastRefill : TokenBucketSetting :=
  { capacity := 1, refillRate := 1073741824 }

/-- A request of a client at a second. -/
def requestAt (secs : Int) : Call :=
  { ip := bytes "a", created := secs, secs := secs, spurious := [false] }

private theorem fastRefill_valid : Valid fastRefill :=
  ⟨by decide, by decide, by decide, by decide⟩

private theorem requestAt_sequential {first second : Int}
    (h0 : 0 ≤ first) (h : first ≤ second) (h1 : second < 4294967296) :
    Sequential fastRefill (bytes "a")
      [requestAt first, requestAt second] where
  one_key c hc := by
    rcases List.mem_pair.mp hc with rfl | rfl <;> rfl
  in_range c hc := by
    rcases List.mem_pair.mp hc with rfl | rfl
    · exact ⟨h0, Int.le_refl _, Int.lt_of_le_of_lt h h1⟩
    · exact ⟨Int.le_trans h0 h, Int.le_refl _, h1⟩
  in_order := List.pairwise_pair.mpr h
  stores c hc := by
    rcases List.mem_pair.mp hc with rfl | rfl
    · exact ⟨0, [], rfl⟩
    · exact ⟨0, [], rfl⟩

/-- Two requests, three seconds apart. -/
theorem refines_reference_three :
    Throughout (Agrees fastRefill (bytes "a"))
      [requestAt 10, requestAt 13] := by
  refine (refines_reference_iff fastRefill_valid
    (requestAt_sequential (by decide) (by decide) (by decide))).mpr ?_
  intro before c after hsplit
  rcases before with _ | ⟨first, _ | ⟨second, rest⟩⟩
  · cases hsplit
    decide
  · cases hsplit
    decide
  · exact absurd hsplit (by simp)

/-- Four seconds apart: 2^30 times four is 2^32, which wraps to nothing,
and the second request is rejected. -/
theorem four_seconds_refill_nothing :
    ¬ ∀ (s : TokenBucketSetting) (key : Bytes) (calls : List Call),
      Valid s → Sequential s key calls →
      Throughout (Agrees s key) calls := by
  intro hclaim
  have hsecond := hclaim fastRefill (bytes "a") _ fastRefill_valid
    (requestAt_sequential (show (0 : Int) ≤ 10 by decide)
      (show (10 : Int) ≤ 14 by decide) (by decide))
    [requestAt 10] (requestAt 14) [] rfl
  exact absurd hsecond.verdict (by decide)

end TokenBucket

end CgiWebServer
