/-
How many requests of a key a limiter admits.

A fixed window admits up to its limit in each window. For the bucket the
tokens in a key's word are a potential: an admission takes one out, and
what the word gains is the rate for every second its stamp moves by, so
the admissions are at most the capacity and what the time has refilled.
-/
import CgiWebServer.Proofs.GlobalLimiter
import CgiWebServer.Proofs.ResetTime

namespace CgiWebServer

-- ============================================================= the limiters

/-- `process`, up to its call of `next`. -/
def Limiter.serve : Limiter → Words → Call → Words × Verdict
  | .fixedWindow s => FixedWindow.serve s
  | .tokenBucket s => TokenBucket.serve s

/-- How many requests of a kind a sequence has had admitted. -/
def Limiter.admissions (l : Limiter) (kind : Call → Bool)
    (calls : List Call) : Nat :=
  (verdicts l.serve ∅ calls).countP fun v => kind v.1 && v.2.isAdmitted

/-- Requests in the order of their clock readings, whose exchanges do not
fail spuriously; a bucket's may, as long as one does not. -/
def Limiter.Undisturbed (calls : List Call) : Limiter → Prop
  | .fixedWindow _ => FixedWindow.Sequential calls
  | .tokenBucket _ => ∀ c ∈ calls,
      0 ≤ c.created ∧ c.created ≤ c.secs ∧ c.secs < 4294967296
        ∧ false ∈ c.spurious

/-- A request of a key. -/
def TokenBucket.asks (s : TokenBucketSetting) (key : Bytes) (c : Call) :
    Bool :=
  c.key s.makeKey = .ok key

/-- A count of requests by their kind is within the limit: of a key in a
window, `max_requests`; of a key in a stretch of time, the capacity and
what is refilled in it. -/
def Limiter.Limits (calls : List Call) (count : (Call → Bool) → Nat) :
    Limiter → Prop
  | .fixedWindow s => ∀ key w,
      (count (FixedWindow.asksIn s key w) : Int) ≤ s.maxRequests
  | .tokenBucket s => ∀ key first last, first ≤ last →
      (∀ c ∈ calls, c.key s.makeKey = .ok key →
        first ≤ c.created ∧ c.secs ≤ last) →
      (count (TokenBucket.asks s key) : Int)
        ≤ s.capacity + s.refillRate * (last - first)

theorem admissions_snoc (l : Limiter) (kind : Call → Bool)
    (calls : List Call) (c : Call) :
    l.admissions kind (calls ++ [c])
      = l.admissions kind calls
        + (kind c && (l.serve (wordsAfter l.serve calls) c).2.isAdmitted
          ).toNat :=
  countP_verdicts_snoc _ _ _ _

/-- More requests have no fewer admitted. -/
theorem admissions_append_le (l : Limiter) (kind : Call → Bool)
    (calls more : List Call) :
    l.admissions kind calls ≤ l.admissions kind (calls ++ more) := by
  induction more using List.reverseRecOn with
  | nil => rw [List.append_nil]
  | append_singleton more c ih =>
      rw [← List.append_assoc, admissions_snoc]
      exact Nat.le_trans ih (Nat.le_add_right _ _)

/-- The requests of a kind have a key. -/
def Limiter.Keyed (l : Limiter) (kind : Call → Bool) : Prop :=
  ∀ c, kind c = true → ∃ key, c.key l.makeKey = .ok key

/-- A count that is smaller for requests with a key is within the limit
too. -/
theorem Limiter.Limits.mono {l : Limiter} {calls : List Call}
    {count count' : (Call → Bool) → Nat} (h : l.Limits calls count)
    (hle : ∀ kind, l.Keyed kind → count' kind ≤ count kind) :
    l.Limits calls count' := by
  cases l with
  | fixedWindow s =>
      intro key w
      have hkeyed : (Limiter.fixedWindow s).Keyed
          (FixedWindow.asksIn s key w) := by
        intro c hc
        refine ⟨key, ?_⟩
        have hkey := (of_decide_eq_true hc).1
        rw [FixedWindow.keyOf] at hkey
        cases hmade : s.makeKey.makeKey c.ip c.request with
        | error e =>
            rw [hmade] at hkey
            cases hkey
        | ok own =>
            rw [hmade] at hkey
            exact hmade.trans (congrArg _ (Option.some.inj hkey))
      have hcount := h key w
      have hsmaller := hle _ hkeyed
      omega
  | tokenBucket s =>
      intro key first last hlast hall
      have hcount := h key first last hlast hall
      have hsmaller := hle (TokenBucket.asks s key)
        fun c hc => ⟨key, of_decide_eq_true hc⟩
      omega

/-- Fewer requests are undisturbed too. -/
theorem Limiter.Undisturbed.before {l : Limiter} {calls more : List Call}
    (h : l.Undisturbed (calls ++ more)) : l.Undisturbed calls := by
  cases l with
  | fixedWindow s =>
      exact {
        in_range := fun c hc => h.in_range c (List.mem_append_left _ hc)
        in_order := (List.pairwise_append.mp h.in_order).1
        no_failure := fun c hc =>
          h.no_failure c (List.mem_append_left _ hc) }
  | tokenBucket s => exact fun c hc => h c (List.mem_append_left _ hc)

/-- A rejection is a 429. -/
theorem status_of_rejected {l : Limiter} {words : Words} {c : Call}
    {e : Exn} (h : (l.serve words c).2 = .rejected e) :
    e.status = .tooManyRequests := by
  cases l with
  | fixedWindow s =>
      simp only [Limiter.serve, FixedWindow.serve] at h
      split at h
      next => cases h
      next key hkey =>
        split at h
        next => cases h
        next hwindow =>
          split at h
          next =>
            cases h
            rfl
          next => cases h
          next => cases h
  | tokenBucket s =>
      obtain ⟨key, -, -, rfl⟩ := TokenBucket.rejected_found h
      rfl

-- ========================================================= the fixed window

/-- A fixed window admits its limit. -/
theorem FixedWindow.limits_admissions {s : FixedWindowSetting}
    (hs : Valid s) {calls : List Call} (hcalls : Sequential calls) :
    (Limiter.fixedWindow s).Limits calls
      ((Limiter.fixedWindow s).admissions · calls) := by
  intro key w
  have hpos := hs.max_pos
  have hgranted : (Limiter.fixedWindow s).admissions (asksIn s key w) calls
      = min (requestsIn s key w calls) s.maxRequests.toNat :=
    admissionsIn_eq hs hcalls key w
  show ((Limiter.fixedWindow s).admissions (asksIn s key w) calls : Int) ≤ _
  omega

/-- It rejects what it does not admit, if there is a key. -/
theorem FixedWindow.admitted_or_rejected {s : FixedWindowSetting}
    (hs : Valid s) {calls : List Call} {c : Call}
    (hcalls : Sequential (calls ++ [c])) {key : Bytes}
    (hkey : c.key s.makeKey = .ok key) :
    (serve s (wordsAfter (serve s) calls) c).2.isAdmitted = true
      ∨ ∃ e, (serve s (wordsAfter (serve s) calls) c).2 = .rejected e := by
  have hkeyOf : keyOf s c = some key := by
    rw [Call.key] at hkey
    rw [keyOf, hkey]
    rfl
  have hrange := windowOf_range hs (hcalls.in_range c (by simp))
  have htold := tells_after hs hcalls.before key _ hrange
    (windowOf_le_last hs hcalls)
  by_cases hroom : requestsIn s key (windowOf s c) calls
      < s.maxRequests.toNat
  · exact Or.inl ((isAdmitted_iff hs hcalls hkeyOf).mpr hroom)
  · rw [Nat.min_eq_right (by omega)] at htold
    obtain ⟨word, -, hserve⟩ := serve_of_full hs hkeyOf htold
    exact Or.inr ⟨_, congrArg Prod.snd hserve⟩

-- ========================================================= the token bucket

namespace TokenBucket

variable {s : TokenBucketSetting} {key : Bytes} {first last : Int}

/-- The potential of a key: what it has had admitted and what its word
holds are within the capacity and what the word's stamp has refilled. -/
def Paid (s : TokenBucketSetting) (first last : Int) (admitted : Nat)
    (word : UInt64) : Prop :=
  (admitted : Int) + (upper word).toNat
      ≤ s.capacity + s.refillRate * ((lower word).toNat - first)
    ∧ first ≤ (lower word).toNat ∧ ((lower word).toNat : Int) ≤ last

/-- A new bucket has admitted nothing. -/
theorem paid_newBucket (hs : Valid s) {created : Int}
    (hfirst : first ≤ created) (hlast : created ≤ last)
    (h0 : 0 ≤ created) (h1 : created < 4294967296) :
    Paid s first last 0 (newBucket s (toU32 created)) := by
  have hpos := hs.capacity_pos
  have hrate := hs.rate_nonneg
  have hrefill : 0 ≤ s.refillRate * (created - first) :=
    Int.mul_nonneg hrate (by omega)
  have hstamp : ((toU32 created).toNat : Int) = created := by
    rw [toNat_toU32 h0 h1]
    omega
  unfold Paid
  rw [upper_newBucket (by omega) hs.capacity_int,
    lower_newBucket (by omega) hs.capacity_int, hstamp]
  omega

/-- An admission pays for itself. -/
theorem paid_attempt (hs : Valid s) {admitted : Nat} {word desired : UInt64}
    {secs : Int} (h : Paid s first last admitted word)
    (h0 : 0 ≤ secs) (h1 : secs < 4294967296) (hlast : secs ≤ last)
    (hattempt : attempt s (toU32 secs) word = some desired) :
    Paid s first last (admitted + 1) desired := by
  have hpos := hs.capacity_pos
  have hrate0 := hs.rate_nonneg
  have hrateInt := hs.rate_int
  have hrate : ((toU32 s.refillRate).toNat : Int) = s.refillRate := by
    rw [toNat_toU32 hrate0 (by omega)]
    omega
  have hclock : (toU32 secs).toNat = secs.toNat := toNat_toU32 h0 h1
  obtain ⟨hheld, hfirst, hstamp⟩ := h
  obtain ⟨-, htaken, hforward⟩ :=
    attempt_some (by omega) hs.capacity_int hattempt
  have hmax := toNat_lower_of_attempt hattempt
  have hmoved : (((lower desired).toNat - (lower word).toNat : Nat) : Int)
      = (lower desired).toNat - (lower word).toNat := by
    omega
  have htaken' : ((upper desired).toNat : Int) + 1
      ≤ (upper word).toNat + s.refillRate
        * ((lower desired).toNat - (lower word).toNat) := by
    rw [← hmoved, ← hrate]
    exact_mod_cast htaken
  refine ⟨?_, by omega, by omega⟩
  -- The refill since the first stamp is the one the word has paid for
  -- already and the one this attempt adds; they meet at the old stamp.
  have hsplit : s.refillRate * ((lower desired).toNat - first)
      = s.refillRate * ((lower desired).toNat - (lower word).toNat)
        + s.refillRate * ((lower word).toNat - first) := by
    rw [← Int.mul_add]
    congr 1
    omega
  rw [hsplit]
  push_cast
  omega

/-- What a key's word shows of a sequence: nothing has been asked while
there is none. -/
def Paying (s : TokenBucketSetting) (key : Bytes) (first last : Int)
    (calls : List Call) : Prop :=
  match (wordsAfter (serve s) calls).lookup key with
  | none => (Limiter.tokenBucket s).admissions (asks s key) calls = 0
  | some word => Paid s first last
      ((Limiter.tokenBucket s).admissions (asks s key) calls) word

/-- A bucket rejects what finds no token, and admits the others, if
there is a key. -/
theorem serve_cases {words : Words} {c : Call}
    (hkey : c.key s.makeKey = .ok key) (hstores : false ∈ c.spurious) :
    ((serve s words c).2.isAdmitted = true ∧ ∃ desired,
        attempt s (toU32 c.secs) (wordFor s words key c) = some desired
          ∧ (serve s words c).1 = words.insert key desired)
      ∨ ((∃ e, (serve s words c).2 = .rejected e)
          ∧ (serve s words c).1
            = words.insert key (wordFor s words key c)) := by
  cases hattempt : attempt s (toU32 c.secs) (wordFor s words key c) with
  | none =>
      rw [serve_of_none hkey hattempt]
      exact Or.inr ⟨⟨_, rfl⟩, rfl⟩
  | some desired =>
      rw [Call.key] at hkey
      unfold wordFor at hattempt
      rcases loopAlone_onFailure_cases hattempt c.spurious with
        hleft | ⟨hfails, -⟩
      · simp only [serve, hkey, hleft]
        exact Or.inl ⟨rfl, desired, rfl, rfl⟩
      · exact absurd hstores hfails

/-- The word that a request finds is paid for, a new bucket's too. -/
theorem paid_wordFor (hs : Valid s) {calls : List Call} {c : Call}
    (h0 : 0 ≤ c.created) (h1 : c.created < 4294967296)
    (hfirst : first ≤ c.created) (hlast : c.created ≤ last)
    (h : Paying s key first last calls) :
    Paid s first last
      ((Limiter.tokenBucket s).admissions (asks s key) calls)
      (wordFor s (wordsAfter (serve s) calls) key c) := by
  unfold Paying at h
  unfold wordFor
  cases hword : (wordsAfter (serve s) calls).lookup key with
  | none =>
      simp only [hword] at h
      rw [h]
      exact paid_newBucket hs hfirst hlast h0 h1
  | some word =>
      simp only [hword] at h
      exact h

/-- A request of another key leaves the word and the count alone. -/
theorem paying_other {calls : List Call} {c : Call}
    (hkey : c.key s.makeKey ≠ .ok key)
    (h : Paying s key first last calls) :
    Paying s key first last (calls ++ [c]) := by
  have hasks : asks s key c = false := decide_eq_false hkey
  have hsame : (serve s (wordsAfter (serve s) calls) c).1.lookup key
      = (wordsAfter (serve s) calls).lookup key := by
    rcases @serve_words s (wordsAfter (serve s) calls) c with
      ⟨e, -, hsame⟩ | ⟨own, word, hown, hwords, -⟩
    · rw [hsame]
    · have hne : key ≠ own := by
        rintro rfl
        exact hkey hown
      rw [hwords, AList.lookup_insert_ne hne]
  unfold Paying at h ⊢
  rw [wordsAfter_snoc, admissions_snoc, hsame, hasks, Bool.false_and]
  exact h

/-- One of the key's own pays for its admission, or is rejected. -/
theorem paying_own (hs : Valid s) {calls : List Call} {c : Call}
    (hkey : c.key s.makeKey = .ok key)
    (hc : 0 ≤ c.created ∧ c.created ≤ c.secs ∧ c.secs < 4294967296
      ∧ false ∈ c.spurious)
    (hfirst : first ≤ c.created) (hlast : c.secs ≤ last)
    (h : Paying s key first last calls) :
    Paying s key first last (calls ++ [c]) := by
  obtain ⟨hcreated, hclock, hrange, hstores⟩ := hc
  have hasks : asks s key c = true := decide_eq_true hkey
  have hfound := paid_wordFor hs hcreated (by omega) hfirst (by omega) h
  have hcases := @serve_cases s key (wordsAfter (serve s) calls) c hkey
    hstores
  unfold Paying
  rw [wordsAfter_snoc, admissions_snoc, hasks, Bool.true_and]
  simp only [Limiter.serve]
  rcases hcases with
    ⟨hadmitted, desired, hattempt, hwords⟩ | ⟨⟨e, hrejected⟩, hwords⟩
  · rw [hwords, AList.lookup_insert, hadmitted]
    exact paid_attempt hs hfound (by omega) hrange hlast hattempt
  · rw [hwords, AList.lookup_insert, hrejected]
    exact hfound

/-- Every sequence pays. -/
theorem paying_all (hs : Valid s) {calls : List Call}
    (hcalls : (Limiter.tokenBucket s).Undisturbed calls)
    (htime : ∀ c ∈ calls, c.key s.makeKey = .ok key →
      first ≤ c.created ∧ c.secs ≤ last) :
    Paying s key first last calls := by
  induction calls using List.reverseRecOn with
  | nil => rfl
  | append_singleton calls c ih =>
      have hbefore := ih (fun d hd => hcalls d (List.mem_append_left _ hd))
        fun d hd => htime d (List.mem_append_left _ hd)
      have hc := hcalls c (by simp)
      by_cases hkey : c.key s.makeKey = .ok key
      · obtain ⟨hfirst, hlast⟩ := htime c (by simp) hkey
        exact paying_own hs hkey hc hfirst hlast hbefore
      · exact paying_other hkey hbefore

/-- A bucket admits its capacity and what is refilled. -/
theorem limits_admissions (hs : Valid s) {calls : List Call}
    (hcalls : (Limiter.tokenBucket s).Undisturbed calls) :
    (Limiter.tokenBucket s).Limits calls
      ((Limiter.tokenBucket s).admissions · calls) := by
  intro key first last hspan htime
  have hpos := hs.capacity_pos
  have hrate := hs.rate_nonneg
  have hrefill : 0 ≤ s.refillRate * (last - first) :=
    Int.mul_nonneg hrate (by omega)
  have hpays := paying_all hs hcalls htime
  show ((Limiter.tokenBucket s).admissions (asks s key) calls : Int) ≤ _
  unfold Paying at hpays
  split at hpays
  next =>
    rw [hpays]
    push_cast
    omega
  next word hword =>
    obtain ⟨hheld, -, hlast⟩ := hpays
    have hle : s.refillRate * ((lower word).toNat - first)
        ≤ s.refillRate * (last - first) :=
      Int.mul_le_mul_of_nonneg_left (by omega) hrate
    omega

end TokenBucket

-- ============================================================= both of them

/-- What a limiter admits is within its limit. -/
theorem limits_admissions {l : Limiter} (hl : l.Valid) {calls : List Call}
    (hcalls : l.Undisturbed calls) :
    l.Limits calls (l.admissions · calls) := by
  cases l with
  | fixedWindow s => exact FixedWindow.limits_admissions hl hcalls
  | tokenBucket s => exact TokenBucket.limits_admissions hl hcalls

/-- A request with a key is admitted or rejected. -/
theorem admitted_or_rejected {l : Limiter} (hl : l.Valid)
    {calls : List Call} {c : Call} (hcalls : l.Undisturbed (calls ++ [c]))
    {key : Bytes} (hkey : c.key l.makeKey = .ok key) :
    (l.serve (wordsAfter l.serve calls) c).2.isAdmitted = true
      ∨ ∃ e, (l.serve (wordsAfter l.serve calls) c).2 = .rejected e := by
  cases l with
  | fixedWindow s =>
      exact FixedWindow.admitted_or_rejected hl hcalls hkey
  | tokenBucket s =>
      rcases TokenBucket.serve_cases hkey (hcalls c (by simp)).2.2.2 with
        ⟨hadmitted, -⟩ | ⟨hrejected, -⟩
      · exact Or.inl hadmitted
      · exact Or.inr hrejected

end CgiWebServer
