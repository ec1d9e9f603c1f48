/-
The token bucket mints nothing.

# The potential

Admitted requests and stored tokens together are the tokens that were
ever in the bucket. One turn of the loop that stores takes one token for
its own request and adds at most `refill_rate` for each second the stamp
moves (`attempt_some`), so the sum stays below what creation and refill
account for. The 32-bit product can only wrap down, which loses tokens
and never mints any.

# The bucket

Creation is the other way to mint. The lock has one holder
(`holdsLock` counts at most one), so at most one request stands between
the second lookup and the emplace, and it saw no entry.
-/
import CgiWebServer.Limiter.TokenBucketThreads

namespace CgiWebServer

namespace TokenBucket

open Interleave

-- ====================================================== threads by kind

/-- Between taking the lock and letting it go. -/
def holdsLock : Phase → Bool
  | .locked | .absent | .holding _ => true
  | _ => false

/-- About to emplace. -/
def isAbsent : Phase → Bool
  | .absent => true
  | _ => false

/-- Admitted. -/
def isAdmitted : Phase → Bool
  | .admitted => true
  | _ => false

/-- The bucket a request holds a pointer to. -/
def Phase.bucket : Phase → Option Nat
  | .holding p | .found p | .timed p _ | .looping p _ _ => some p
  | _ => none

section Setting

variable {s : TokenBucketSetting}
variable (hcap0 : 0 ≤ s.capacity) (hcap : s.capacity < 2147483648)
variable (hrate0 : 0 ≤ s.refillRate) (hrate : s.refillRate < 2147483648)

-- ================================================ the arithmetic of a turn

section Capacity
include hcap0 hcap

/-- The refilled tokens are within the capacity and within what the rate
gives for the elapsed seconds, wrapped or not. -/
theorem newTokens_le (secs : UInt32) (old : UInt64) :
    (newTokens s secs old).toNat ≤ s.capacity.toNat
      ∧ (newTokens s secs old).toNat
          ≤ (upper old).toNat
            + (toU32 s.refillRate).toNat * (elapsed secs old).toNat := by
  rw [toNat_newTokens hcap0 hcap]
  exact ⟨Nat.min_le_left _ _,
    Nat.le_trans (Nat.min_le_right _ _) (Nat.mod_le _ _)⟩

/-- What a turn that does not throw desires: one token less than it may
have, at a stamp that has not moved back. -/
theorem attempt_some {secs : UInt32} {old desired : UInt64}
    (hattempt : attempt s secs old = some desired) :
    (upper desired).toNat + 1 ≤ s.capacity.toNat
      ∧ (upper desired).toNat + 1
          ≤ (upper old).toNat + (toU32 s.refillRate).toNat
            * ((lower desired).toNat - (lower old).toNat)
      ∧ (lower old).toNat ≤ (lower desired).toNat := by
  have hstamp := elapsed_eq secs old
  obtain ⟨hle, hrefill⟩ := newTokens_le hcap0 hcap secs old
  simp only [attempt] at hattempt
  split at hattempt
  next => exact absurd hattempt (by simp)
  next hsome =>
    obtain rfl := Option.some.inj hattempt
    have hpos : 1 ≤ (newTokens s secs old).toNat :=
      UInt64.le_iff_toNat_le.mp (UInt64.not_lt.mp hsome)
    have hone : (1 : UInt64) ≤ newTokens s secs old :=
      UInt64.not_lt.mp hsome
    have hupper : ((newTokens s secs old - 1).toUInt32).toNat
        = (newTokens s secs old).toNat - 1 := by
      rw [UInt64.toNat_toUInt32, UInt64.toNat_sub_of_le _ _ hone,
        UInt64.toNat_one]
      exact Nat.mod_eq_of_lt (by omega)
    have hmoved : (newRefill secs old).toNat - (lower old).toNat
        = (elapsed secs old).toNat := by
      omega
    rw [upper_pack, lower_pack, hupper, hmoved]
    refine ⟨by omega, by omega, by omega⟩

end Capacity

-- ============================================================= soundness

/-- What a bucket owes to creation and refill, with a number of requests
admitted from it. -/
structure Sound (s : TokenBucketSetting) (b : Bucket) (admitted : Nat) :
    Prop where
  tokens_le : (b.tokens : Int) ≤ s.capacity
  creation_le : b.creation ≤ b.stamp
  conserved : (admitted : Int) + b.tokens
    ≤ s.capacity + s.refillRate * ((b.stamp : Int) - b.creation)

section Conservation
include hcap0 hcap

/-- A new bucket is full and owes nothing to refill. -/
theorem sound_created (now : UInt32) : Sound s (created s now) 0 := by
  have htokens : (created s now).tokens = s.capacity.toNat :=
    upper_newBucket hcap0 hcap now
  have hstamp : (created s now).stamp = now.toNat :=
    lower_newBucket hcap0 hcap now
  have hcreation : (created s now).creation = now.toNat := rfl
  refine ⟨by omega, by omega, ?_⟩
  rw [htokens, hstamp, hcreation, Int.sub_self, Int.mul_zero]
  omega

include hrate0 hrate

/-- A turn that stores admits one request and keeps the bucket sound, and
its stamp does not move back. -/
theorem sound_store {b : Bucket} {admitted : Nat} {secs : UInt32}
    {desired : UInt64} (hsound : Sound s b admitted)
    (hattempt : attempt s secs b.word = some desired) :
    Sound s { b with word := desired } (admitted + 1)
      ∧ b.stamp ≤ Bucket.stamp { b with word := desired } := by
  obtain ⟨hcapped, hrefill, hstamp⟩ := attempt_some hcap0 hcap hattempt
  obtain ⟨htokens, hcreation, hconserved⟩ := hsound
  have hrateNat : (toU32 s.refillRate).toNat = s.refillRate.toNat :=
    toNat_toU32 (by omega) (by omega)
  have hrefill' : ((upper desired).toNat : Int) + 1
      ≤ (upper b.word).toNat + s.refillRate
        * ((lower desired).toNat - (lower b.word).toNat : Int) := by
    have hcast := Int.ofNat_le.mpr hrefill
    rw [hrateNat, Int.natCast_add (upper b.word).toNat, Int.natCast_mul,
      Int.natCast_sub hstamp, Int.toNat_of_nonneg hrate0] at hcast
    exact hcast
  refine ⟨⟨?_, Nat.le_trans hcreation hstamp, ?_⟩, hstamp⟩
  · show ((upper desired).toNat : Int) ≤ s.capacity
    omega
  · show ((admitted + 1 : Nat) : Int) + (upper desired).toNat
      ≤ s.capacity + s.refillRate
        * (((lower desired).toNat : Int) - b.creation)
    -- The stamps meet at the word's own: what was refilled up to it is
    -- accounted for already.
    have hsplit : s.refillRate * (((lower desired).toNat : Int) - b.creation)
        = s.refillRate * ((b.stamp : Int) - b.creation)
          + s.refillRate
            * (((lower desired).toNat : Int) - (lower b.word).toNat) := by
      rw [← Int.mul_add]
      congr 1
      show _ = ((lower b.word).toNat : Int) - _ + _
      omega
    have htok : (b.tokens : Int) = (upper b.word).toNat := rfl
    rw [hsplit]
    push_cast
    omega

end Conservation

-- ========================================================== the invariant

/-- The map's entry and the buckets created agree: there is none, and
nobody was admitted, or there is one, and it is sound. -/
def Stored (s : TokenBucketSetting) (m : Shared) (admitted : Nat) : Prop :=
  (m.buckets = [] ∧ m.entry = none ∧ admitted = 0)
    ∨ ∃ b, m.buckets = [b] ∧ m.entry = some 0 ∧ Sound s b admitted

/-- The invariant of the limiter under concurrent requests. -/
structure Inv (s : TokenBucketSetting) (sys : Sys Shared Phase) : Prop where
  stored : Stored s sys.shared (sys.threads.countP isAdmitted)
  holders : sys.threads.countP holdsLock = sys.shared.locked.toNat
  absent : sys.threads.countP isAbsent = 0 ∨ sys.shared.buckets = []
  pointers : ∀ t ∈ sys.threads, ∀ p, t.bucket = some p →
    p < sys.shared.buckets.length

-- =============================================================== the moves

/-- A move that leaves the shared state alone keeps the invariant if its
thread's new phase is one the shared state allows. -/
theorem inv_quiet {sys : Sys Shared Phase} {i : Nat} {t t' : Phase}
    (hinv : Inv s sys) (ht : sys.threads[i]? = some t)
    (hadmitted : isAdmitted t' = isAdmitted t)
    (hholds : holdsLock t' = holdsLock t)
    (habsent : isAbsent t' = true →
      isAbsent t = true ∨ sys.shared.buckets = [])
    (hpointer : ∀ p, t'.bucket = some p → p < sys.shared.buckets.length) :
    Inv s ⟨sys.shared, sys.threads.set i t'⟩ := by
  have hadm := count_set isAdmitted ht t'
  have hlock := count_set holdsLock ht t'
  have habs := count_set isAbsent ht t'
  rw [hadmitted] at hadm
  rw [hholds] at hlock
  refine ⟨?_, ?_, ?_, forall_set hinv.pointers hpointer⟩
  · rw [show (sys.threads.set i t').countP isAdmitted
        = sys.threads.countP isAdmitted by omega]
    exact hinv.stored
  · rw [show (sys.threads.set i t').countP holdsLock
        = sys.threads.countP holdsLock by omega]
    exact hinv.holders
  -- Only a thread that newly sees no bucket has something to show.
  · cases hinv.absent with
    | inr hnone => exact Or.inr hnone
    | inl hzero =>
        cases hnew : isAbsent t' with
        | false =>
            left
            rw [hnew, Bool.toNat_false] at habs
            show (sys.threads.set i t').countP isAbsent = 0
            omega
        | true =>
            cases habsent hnew with
            | inr hnone => exact Or.inr hnone
            | inl hold =>
                have hmem := List.mem_of_getElem? ht
                exact absurd (not_counted isAbsent hzero hmem)
                  (by rw [hold]; simp)

/-- The entry points at a bucket that was created. -/
theorem entry_lt {m : Shared} {admitted p : Nat}
    (hstored : Stored s m admitted) (hentry : m.entry = some p) :
    p < m.buckets.length := by
  rcases hstored with ⟨_, hnone, _⟩ | ⟨b, hone, hzero, _⟩
  · exact absurd (hnone.symm.trans hentry) (by simp)
  · obtain rfl := Option.some.inj (hzero.symm.trans hentry)
    rw [hone]
    exact Nat.zero_lt_one

/-- With no entry there is no bucket, and nobody was admitted. -/
theorem no_bucket {m : Shared} {admitted : Nat}
    (hstored : Stored s m admitted) (hentry : m.entry = none) :
    m.buckets = [] ∧ admitted = 0 := by
  rcases hstored with ⟨hnone, _, hzero⟩ | ⟨b, _, hsome, _⟩
  · exact ⟨hnone, hzero⟩
  · exact absurd (hsome.symm.trans hentry) (by simp)

/-- A step that only looks keeps the invariant: what it found is there,
and it saw no entry only where there is no bucket. -/
theorem inv_looks {sys : Sys Shared Phase} {i : Nat} {t t' : Phase}
    (hinv : Inv s sys) (ht : sys.threads[i]? = some t)
    (hlooks : Looks sys.shared t t') :
    Inv s ⟨sys.shared, sys.threads.set i t'⟩ := by
  have hpointer := hinv.pointers t (List.mem_of_getElem? ht)
  have hfound : ∀ p, sys.shared.entry = some p →
      ∀ q, some p = some q → q < sys.shared.buckets.length := by
    intro p hentry q hq
    exact Option.some.inj hq ▸ entry_lt hinv.stored hentry
  -- Of the eight only absent tells something new of the map, and found and
  -- holding bring a pointer.
  cases hlooks with
  | found hentry =>
      exact inv_quiet hinv ht rfl rfl (fun h => by cases h)
        (hfound _ hentry)
  | missed hentry =>
      exact inv_quiet hinv ht rfl rfl (fun h => by cases h)
        (fun _ h => by cases h)
  | holding hentry =>
      exact inv_quiet hinv ht rfl rfl (fun h => by cases h)
        (hfound _ hentry)
  | absent hentry =>
      exact inv_quiet hinv ht rfl rfl
        (fun _ => Or.inr (no_bucket hinv.stored hentry).1)
        (fun _ h => by cases h)
  | timed secs =>
      exact inv_quiet hinv ht rfl rfl (fun h => by cases h) hpointer
  | loaded old =>
      exact inv_quiet hinv ht rfl rfl (fun h => by cases h) hpointer
  | round old' =>
      exact inv_quiet hinv ht rfl rfl (fun h => by cases h) hpointer
  | rejected =>
      exact inv_quiet hinv ht rfl rfl (fun h => by cases h)
        (fun _ h => by cases h)

/-- A bucket that was created is the only one, and it is sound. -/
theorem one_bucket {m : Shared} {admitted p : Nat} {b : Bucket}
    (hstored : Stored s m admitted) (hb : m.buckets[p]? = some b) :
    p = 0 ∧ m.buckets = [b] ∧ m.entry = some 0 ∧ Sound s b admitted := by
  rcases hstored with ⟨hnone, _, _⟩ | ⟨b', hone, hentry, hsound⟩
  · rw [hnone] at hb
    exact absurd hb (by simp)
  · rw [hone] at hb
    cases p with
    | zero =>
        obtain rfl : b' = b := by simpa using hb
        exact ⟨rfl, hone, hentry, hsound⟩
    | succ p => exact absurd hb (by simp)

/-- An arrival is of no kind. -/
theorem inv_arrive {sys : Sys Shared Phase} (hinv : Inv s sys) :
    Inv s ⟨sys.shared, sys.threads ++ [.fresh]⟩ := by
  refine ⟨?_, ?_, ?_, forall_arrive hinv.pointers (by simp [Phase.bucket])⟩
  · rw [count_arrive isAdmitted _ rfl]
    exact hinv.stored
  · rw [count_arrive holdsLock _ rfl]
    exact hinv.holders
  · rw [count_arrive isAbsent _ rfl]
    exact hinv.absent

/-- Taking a free lock makes its taker the one holder. -/
theorem inv_lock {sys : Sys Shared Phase} {i : Nat} (hinv : Inv s sys)
    (ht : sys.threads[i]? = some .missed)
    (hfree : sys.shared.locked = false) :
    Inv s ⟨{ sys.shared with locked := true },
      sys.threads.set i .locked⟩ := by
  have hadm := count_set isAdmitted ht .locked
  have hlock := count_set holdsLock ht .locked
  have habs := count_set isAbsent ht .locked
  have hholders := hinv.holders
  simp only [isAdmitted, holdsLock, isAbsent, Bool.toNat_false,
    Bool.toNat_true, Nat.add_zero] at hadm hlock habs
  rw [hfree, Bool.toNat_false] at hholders
  refine ⟨?_, ?_, ?_, ?_⟩
  · rw [hadm]
    exact hinv.stored
  · rw [hlock, hholders]
    rfl
  · rw [habs]
    exact hinv.absent
  · exact forall_set hinv.pointers (by simp [Phase.bucket])

/-- Letting the lock go leaves it without a holder. -/
theorem inv_unlock {sys : Sys Shared Phase} {i p : Nat} (hinv : Inv s sys)
    (ht : sys.threads[i]? = some (.holding p)) :
    Inv s ⟨{ sys.shared with locked := false },
      sys.threads.set i (.found p)⟩ := by
  have hadm := count_set isAdmitted ht (.found p)
  have hlock := count_set holdsLock ht (.found p)
  have habs := count_set isAbsent ht (.found p)
  have hholders := hinv.holders
  have hone := Bool.toNat_le sys.shared.locked
  simp only [isAdmitted, holdsLock, isAbsent, Bool.toNat_false,
    Bool.toNat_true, Nat.add_zero] at hadm hlock habs
  have hp := hinv.pointers _ (List.mem_of_getElem? ht) p rfl
  refine ⟨?_, ?_, ?_, ?_⟩
  · rw [hadm]
    exact hinv.stored
  · show (sys.threads.set i (.found p)).countP holdsLock = 0
    omega
  · rw [habs]
    exact hinv.absent
  · exact forall_set hinv.pointers fun q hq => Option.some.inj hq ▸ hp

/-- Nobody is about to emplace but the one holder of the lock. -/
theorem absent_le_one {sys : Sys Shared Phase} (hinv : Inv s sys) :
    sys.threads.countP isAbsent ≤ 1 := by
  have hsub : sys.threads.countP isAbsent
      ≤ sys.threads.countP holdsLock := by
    refine List.countP_mono_left fun t _ ht => ?_
    cases t <;> simp_all [isAbsent, holdsLock]
  have hone := Bool.toNat_le sys.shared.locked
  have hholders := hinv.holders
  omega

section Moves
include hcap0 hcap

/-- The emplace creates the first bucket. -/
theorem inv_emplace {sys : Sys Shared Phase} {i : Nat} (now : UInt32)
    (hinv : Inv s sys) (ht : sys.threads[i]? = some .absent) :
    Inv s ⟨{ sys.shared with
        buckets := sys.shared.buckets ++ [created s now],
        entry := some sys.shared.buckets.length },
      sys.threads.set i (.holding sys.shared.buckets.length)⟩ := by
  have hmem := List.mem_of_getElem? ht
  -- The emplacing thread is counted as absent, so there is no bucket yet
  -- and nobody has been admitted.
  have hnone : sys.shared.buckets = [] := by
    cases hinv.absent with
    | inr hnone => exact hnone
    | inl hzero =>
        exact absurd (not_counted isAbsent hzero hmem) (by simp [isAbsent])
  have hnobody : sys.threads.countP isAdmitted = 0 := by
    rcases hinv.stored with ⟨_, _, hzero⟩ | ⟨b, hone, _⟩
    · exact hzero
    · exact absurd (hnone.symm.trans hone) (by simp)
  have hadm := count_set isAdmitted ht (.holding 0)
  have hlock := count_set holdsLock ht (.holding 0)
  have habs := count_set isAbsent ht (.holding 0)
  have hone := absent_le_one hinv
  simp only [isAdmitted, holdsLock, isAbsent, Bool.toNat_false,
    Bool.toNat_true, Nat.add_zero] at hadm hlock habs
  simp only [hnone, List.nil_append, List.length_nil]
  refine ⟨Or.inr ⟨created s now, rfl, rfl, ?_⟩, ?_, Or.inl ?_, ?_⟩
  · rw [hadm, hnobody]
    exact sound_created hcap0 hcap now
  · show (sys.threads.set i (.holding 0)).countP holdsLock
      = sys.shared.locked.toNat
    rw [← hinv.holders]
    omega
  · show (sys.threads.set i (.holding 0)).countP isAbsent = 0
    omega
  · refine forall_set (fun t htm p hp => ?_) (fun p hp => ?_)
    · have hlt := hinv.pointers t htm p hp
      rw [hnone] at hlt
      exact absurd hlt (Nat.not_lt_zero p)
    · obtain rfl := Option.some.inj hp
      exact Nat.zero_lt_one

include hrate0 hrate

/-- A store admits its request from the one bucket there is. -/
theorem inv_store {sys : Sys Shared Phase} {i p : Nat} {secs : UInt32}
    {old desired : UInt64} {b : Bucket} (hinv : Inv s sys)
    (ht : sys.threads[i]? = some (.looping p secs old))
    (hb : sys.shared.buckets[p]? = some b)
    (hattempt : attempt s secs b.word = some desired) :
    Inv s ⟨{ sys.shared with
        buckets := sys.shared.buckets.set p { b with word := desired } },
      sys.threads.set i .admitted⟩ := by
  obtain ⟨rfl, hone, hentry, hsound⟩ := one_bucket hinv.stored hb
  have hnext := sound_store hcap0 hcap hrate0 hrate hsound hattempt
  have hadm := count_set isAdmitted ht .admitted
  have hlock := count_set holdsLock ht .admitted
  have habs := count_set isAbsent ht .admitted
  simp only [isAdmitted, holdsLock, isAbsent, Bool.toNat_false,
    Bool.toNat_true, Nat.add_zero] at hadm hlock habs
  refine ⟨Or.inr ⟨{ b with word := desired }, ?_, hentry, ?_⟩, ?_, ?_, ?_⟩
  · rw [hone]
    rfl
  · rw [hadm]
    exact hnext.1
  · rw [hlock]
    exact hinv.holders
  · rw [habs]
    cases hinv.absent with
    | inl hzero => exact Or.inl hzero
    | inr hnone => exact absurd (hnone.symm.trans hone) (by simp)
  · rw [List.length_set]
    exact forall_set hinv.pointers (by simp [Phase.bucket])

/-- A move of one thread keeps the invariant. -/
theorem inv_move {sys : Sys Shared Phase} {i : Nat} {a : Move}
    {t t' : Phase} {m' : Shared} (hinv : Inv s sys)
    (ht : sys.threads[i]? = some t)
    (hstep : step s a sys.shared t = some (m', t')) :
    Inv s ⟨m', sys.threads.set i t'⟩ := by
  cases requestStep_of hstep with
  | looks hlooks => exact inv_looks hinv ht hlooks
  | lock hfree => exact inv_lock hinv ht hfree
  | emplace now => exact inv_emplace hcap0 hcap now hinv ht
  | unlock => exact inv_unlock hinv ht
  | store hb hattempt =>
      exact inv_store hcap0 hcap hrate0 hrate hinv ht hb hattempt

-- ======================================================== over whole runs

/-- Every system reached keeps the invariant. -/
theorem inv_of_reach {sys : Sys Shared Phase}
    (hrun : (program s).Reach (fun _ _ => True) noBucket sys) :
    Inv s sys := by
  refine hrun.invariant ?_ ?_ ?_
  · exact ⟨Or.inl ⟨rfl, rfl, rfl⟩, rfl, Or.inl rfl, by simp⟩
  · intro sys _ hinv _
    exact inv_arrive hinv
  · intro sys i a t m' t' hinv _ ht hstep
    exact inv_move hcap0 hcap hrate0 hrate hinv ht hstep

/-- What any action does to a bucket that exists: it stays, created when
it was, and its stamp does not move back. -/
theorem stamp_mono {sys sys' : Sys Shared Phase} {x : Action Unit Move}
    {p : Nat} {b : Bucket} (hinv : Inv s sys)
    (happly : (program s).apply x sys = some sys')
    (hb : sys.shared.buckets[p]? = some b) :
    ∃ b', sys'.shared.buckets[p]? = some b' ∧ b'.createdAt = b.createdAt
      ∧ b.stamp ≤ b'.stamp := by
  cases x with
  | arrive r =>
      obtain rfl := Option.some.inj happly
      exact ⟨b, hb, rfl, Nat.le_refl _⟩
  | move i a =>
      obtain ⟨t, m', t', _, hstep, rfl⟩ := Program.apply_move happly
      have hlt : p < sys.shared.buckets.length :=
        (List.getElem?_eq_some_iff.mp hb).1
      rcases step_buckets hstep with hsame | ⟨now, happend⟩
        | ⟨q, b', secs, desired, hb', hattempt, hset⟩
      · exact ⟨b, by rw [hsame, hb], rfl, Nat.le_refl _⟩
      · refine ⟨b, ?_, rfl, Nat.le_refl _⟩
        show m'.buckets[p]? = some b
        rw [happend, List.getElem?_append_left hlt, hb]
      · -- The store is in the one bucket there is.
        obtain ⟨rfl, hone, _, hsound⟩ := one_bucket hinv.stored hb
        obtain ⟨rfl, hone', _, _⟩ := one_bucket hinv.stored hb'
        obtain rfl : b' = b := by
          simpa using hone'.symm.trans hone
        refine ⟨{ b' with word := desired }, ?_, rfl, ?_⟩
        · show m'.buckets[0]? = some { b' with word := desired }
          rw [hset, hone]
          rfl
        · exact (sound_store hcap0 hcap hrate0 hrate hsound hattempt).2

/-- In every system concurrent requests with one key reach, there is at
most one bucket for it; its tokens are within the capacity; the requests
admitted and the tokens stored are within the capacity and what the rate
gives for the seconds from its creation to its stamp; and whatever
happens next, it stays and its stamp does not move back. -/
theorem tokens_conserved {sys : Sys Shared Phase}
    (hrun : (program s).Reach (fun _ _ => True) noBucket sys) :
    sys.shared.buckets.length ≤ 1
      ∧ (∀ b ∈ sys.shared.buckets, (b.tokens : Int) ≤ s.capacity
          ∧ (sys.threads.countP isAdmitted : Int) + b.tokens
            ≤ s.capacity + s.refillRate * ((b.stamp : Int) - b.creation))
      ∧ (∀ x sys', (program s).apply x sys = some sys' →
          ∀ (p : Nat) (b : Bucket), sys.shared.buckets[p]? = some b →
            ∃ b', sys'.shared.buckets[p]? = some b'
              ∧ b'.createdAt = b.createdAt ∧ b.stamp ≤ b'.stamp) := by
  have hinv := inv_of_reach hcap0 hcap hrate0 hrate hrun
  refine ⟨?_, ?_, ?_⟩
  · rcases hinv.stored with ⟨hnone, _, _⟩ | ⟨b, hone, _⟩
    · rw [hnone]
      exact Nat.zero_le 1
    · rw [hone]
      exact Nat.le_refl 1
  · intro b hb
    obtain ⟨p, hp⟩ := List.mem_iff_getElem?.mp hb
    obtain ⟨_, _, _, hsound⟩ := one_bucket hinv.stored hp
    exact ⟨hsound.tokens_le, hsound.conserved⟩
  · intro x sys' happly p b hb
    exact stamp_mono hcap0 hcap hrate0 hrate hinv happly hb

end Moves

end Setting

/-- Two requests for one token: the first creates the bucket, the second
stores while the first is in its loop. -/
def race : List (Action Unit Move) :=
  [.arrive (), .arrive (), .move 0 .lookup, .move 1 .lookup,
    .move 0 .lock, .move 0 .lookupLocked, .move 0 (.emplace 5),
    .move 0 .unlock, .move 1 .lock, .move 1 .lookupLocked,
    .move 1 .unlock, .move 0 (.clock 5), .move 1 (.clock 5),
    .move 0 .load, .move 1 .load, .move 1 (.exchange false),
    .move 0 (.exchange false), .move 0 (.exchange false)]

/-- The second has the token. -/
def raceEnd : Sys Shared Phase :=
  ⟨⟨[⟨5, 5⟩], some 0, false⟩, [.rejected, .admitted]⟩

theorem race_runs :
    (program { capacity := 1, refillRate := 1 }).run race ⟨noBucket, []⟩
      = some raceEnd := by
  decide

/-- One bucket is made in the race, and its token is given once. -/
theorem tokens_conserved_race :
    raceEnd.shared.buckets.length ≤ 1
      ∧ ∀ b ∈ raceEnd.shared.buckets,
        (raceEnd.threads.countP isAdmitted : Int) + b.tokens
          ≤ 1 + 1 * ((b.stamp : Int) - b.creation) := by
  obtain ⟨hone, hconserved, -⟩ := tokens_conserved
    (s := { capacity := 1, refillRate := 1 }) (by decide) (by decide)
    (by decide) (by decide) (Program.Reach.start.run race_runs)
  exact ⟨hone, fun b hb => (hconserved b hb).2⟩

end TokenBucket

end CgiWebServer
