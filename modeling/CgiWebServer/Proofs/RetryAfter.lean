/-
`Retry-After` is exact, for both limiters.

# The wait

A rejection changes no word, so what a key's next request finds is the
word the rejected one found, and only its clock differs. The fixed window
sends the seconds to the end of its window: one second earlier the word
is still that of the clock's window and full, and at the end it is that
of another one. The token bucket always sends one second: a stamp is
never ahead of the clock (`stamps_le`), so the wait for the next refill
is that of the next second, and until then nothing has been refilled.

# The wrapped sum

A bucket rejects where its refilled sum is zero in 32 bits, which may be
a wrapped sum. A second later the sum is the rate, in 32 bits, and a rate
is an `int` and positive, so that the request is admitted in either case
(`newTokens_next`).
-/
import CgiWebServer.Proofs.FixedWindowSequence
import CgiWebServer.Proofs.TokenBucketReference

namespace CgiWebServer

-- ======================================================== the sequences

/-- The key a request is counted under. -/
def Call.key (f : KeyFunc) (c : Call) : Except Exn Bytes :=
  f.makeKey c.ip c.request

/-- Requests one after the other: each reads its clocks behind the one
before it. -/
structure InTime (calls : List Call) : Prop where
  clocks : ∀ c ∈ calls, 0 ≤ c.created ∧ c.created ≤ c.secs
  in_order : calls.Pairwise fun a b => a.secs ≤ b.created

/-- A request whose loop has had the time of two exchanges, one of them
without a spurious failure. -/
def Completes (c : Call) : Prop := 2 ≤ c.spurious.length ∧ false ∈ c.spurious

/-- What comes between two requests reads its clocks between them. -/
theorem InTime.between {calls between : List Call} {c d : Call}
    (h : InTime (calls ++ c :: (between ++ [d]))) :
    (∀ b ∈ between, c.secs ≤ b.secs ∧ b.secs ≤ d.secs) ∧ c.secs ≤ d.secs := by
  have htail := (List.pairwise_append.mp h.in_order).2.1
  obtain ⟨hfirst, hrest⟩ := List.pairwise_cons.mp htail
  have hclock : ∀ b ∈ between ++ [d], b.created ≤ b.secs := fun b hb =>
    (h.clocks b (List.mem_append_right _ (List.mem_cons_of_mem _ hb))).2
  refine ⟨fun b hb => ⟨?_, ?_⟩, ?_⟩
  · exact Int.le_trans (hfirst b (List.mem_append_left _ hb))
      (hclock b (List.mem_append_left _ hb))
  · have hlast := (List.pairwise_append.mp hrest).2.2 b hb d (by simp)
    exact Int.le_trans hlast (hclock d (by simp))
  · exact Int.le_trans (hfirst d (by simp)) (hclock d (by simp))

-- ========================================================= the property

/-- The `Retry-After` an exception carries. -/
def retryAfterOf : Exn → Option Bytes
  | .http e => e.response.headers.lookup (bytes "Retry-After")
  | .std _ => none

/-- A wait `r` sent with the rejection of `c` is exact: it is at least a
second, the key's next request is admitted when it is over, and every
request of the key is rejected before. -/
structure ExactWait (serve : Words → Call → Words × Verdict) (f : KeyFunc)
    (calls : List Call) (c : Call) (e : Exn) (r : Nat) : Prop where
  sent : retryAfterOf e = some (toStr r)
  positive : 1 ≤ r
  admits : ∀ between d, InTime (calls ++ c :: (between ++ [d])) →
    d.key f = c.key f → (∀ b ∈ between, b.key f ≠ c.key f) →
    d.secs = c.secs + r → Completes d →
    (serve (wordsAfter serve (calls ++ c :: between)) d).2.isAdmitted = true
  rejects : ∀ between d, InTime (calls ++ c :: (between ++ [d])) →
    d.key f = c.key f → d.secs < c.secs + r →
    ∃ e', (serve (wordsAfter serve (calls ++ c :: between)) d).2
      = .rejected e'

/-- The header of a rejection is the one it is given. -/
theorem retryAfterOf_rejection (message : Bytes) (wait : Bytes) :
    retryAfterOf (.http (.mk' .tooManyRequests message
      ((∅ : Headers).insert (bytes "Retry-After") wait))) = some wait := by
  have hlen : bytes "Retry-After" ≠ bytes "Content-Length" := by decide
  have hconn : bytes "Retry-After" ≠ bytes "Connection" := by decide
  simp only [retryAfterOf, HTTPException.mk', Response.addHeader_headers]
  rw [AList.lookup_insert_ne hlen, AList.lookup_insert_ne hconn,
    Response.lookup_addHeaders, AList.lookup_insert]
  rfl

-- ============================================================= the words

/-- The words after some requests more. -/
theorem wordsAfter_append (serve : Words → Call → Words × Verdict)
    (calls more : List Call) :
    wordsAfter serve (calls ++ more)
      = more.foldl (fun words c => (serve words c).1)
          (wordsAfter serve calls) := by
  rw [wordsAfter, List.foldl_append]
  rfl

/-- A key's word stays through requests that leave it. -/
theorem lookup_foldl {serve : Words → Call → Words × Verdict} {key : Bytes}
    {word : UInt64} {P : Call → Prop}
    (hstep : ∀ words b, P b → words.lookup key = some word →
      (serve words b).1.lookup key = some word) :
    ∀ (between : List Call) (words : Words), (∀ b ∈ between, P b) →
      words.lookup key = some word →
      (between.foldl (fun words c => (serve words c).1) words).lookup key
        = some word := by
  intro between
  induction between with
  | nil => exact fun _ _ hword => hword
  | cons b rest ih =>
      intro words hall hword
      exact ih _ (fun d hd => hall d (List.mem_cons_of_mem _ hd))
        (hstep words b (hall b List.mem_cons_self) hword)

-- ============================================================= the loops

section Loops

variable {body : UInt64 → Option UInt64} {word desired : UInt64}

/-- A loop that repeats on success ends within two exchanges, whether or
not they fail spuriously, and throws at the word it began with only. -/
theorem loopAlone_onSuccess_cases (h : body word = some desired)
    (hne : desired ≠ word) (spurious : List Bool) :
    (loopAlone body true spurious word).1 = .left desired
      ∨ spurious.length < 2
        ∧ (loopAlone body true spurious word).1 = .running := by
  cases spurious with
  | nil =>
      refine Or.inr ⟨Nat.zero_lt_two, ?_⟩
      simp only [loopAlone, exchangesAlone, exchangeLoop, h]
  | cons first rest =>
      cases first with
      | true =>
          left
          simp only [loopAlone, exchangesAlone, h, compareExchangeWeak,
            exchangeTurn, Bool.true_eq_false, and_false, if_false,
            Bool.false_eq_true, exchangeLoop]
      | false =>
          cases rest with
          | nil =>
              refine Or.inr ⟨Nat.one_lt_two, ?_⟩
              simp only [loopAlone, exchangesAlone, h, compareExchangeWeak,
                exchangeTurn, and_self, if_true, exchangeLoop]
          | cons second rest =>
              left
              simp only [loopAlone, exchangesAlone, h, compareExchangeWeak,
                exchangeTurn, and_self, if_true, hne, false_and, if_false,
                Bool.false_eq_true, exchangeLoop]

/-- A loop that repeats on failure ends with its first exchange that does
not fail spuriously. -/
theorem loopAlone_onFailure_cases (h : body word = some desired)
    (spurious : List Bool) :
    (loopAlone body false spurious word = (.left desired, desired))
      ∨ (false ∉ spurious
        ∧ loopAlone body false spurious word = (.running, word)) := by
  -- The loop is left at the first exchange that does not fail by chance.
  by_cases hmem : false ∈ spurious
  · obtain ⟨failures, rest, rfl, hnot⟩ := List.eq_append_cons_of_mem hmem
    have hall : failures = List.replicate failures.length true := by
      rw [List.eq_replicate_iff]
      refine ⟨rfl, fun b hb => ?_⟩
      cases b with
      | true => rfl
      | false => exact absurd hb hnot
    rw [hall]
    exact Or.inl (loopAlone_onFailure h _ rest)
  · refine Or.inr ⟨hmem, ?_⟩
    have hrun : exchangesAlone body false spurious word word
          = (spurious.map fun _ => ⟨false, word⟩, word)
        ∧ exchangeLoop body false
            (spurious.map fun _ => ⟨false, word⟩) word = .running := by
      induction spurious with
      | nil => exact ⟨rfl, by simp only [List.map_nil, exchangeLoop, h]⟩
      | cons b rest ih =>
          obtain ⟨hxs, hloop⟩ := ih fun hin =>
            hmem (List.mem_cons_of_mem _ hin)
          cases b with
          | false => exact absurd List.mem_cons_self hmem
          | true =>
              constructor
              · simp only [exchangesAlone, h, compareExchangeWeak,
                  Bool.true_eq_false, and_false, if_false, exchangeTurn,
                  if_true, Bool.false_eq_true, hxs, List.map_cons]
              · simp only [List.map_cons, exchangeLoop, h, exchangeTurn,
                  if_true, Bool.false_eq_true, if_false, hloop]
    simp only [loopAlone, hrun.1, hrun.2]

end Loops

-- ====================================================== the fixed window

namespace FixedWindow

variable {s : FixedWindowSetting} {words : Words} {c : Call} {key : Bytes}

/-- The body throws at a word that is full in the clock's window. -/
theorem attempt_none_iff {w : UInt32} {word : UInt64} :
    attempt s w word = none
      ↔ upper word = w ∧ toU32 s.maxRequests ≤ lower word := by
  rcases attempt_cases s w word with ⟨hw, hfull, hnone⟩ | ⟨hw, hroom, hsome⟩
    | ⟨hw, hsome⟩
  · exact iff_of_true hnone ⟨hw, hfull⟩
  · rw [hsome]
    exact iff_of_false (Option.some_ne_none _)
      fun h => absurd hroom (UInt32.not_lt.mpr h.2)
  · rw [hsome]
    exact iff_of_false (Option.some_ne_none _) fun h => hw h.1

/-- A desired word is not the one it was computed from. -/
theorem attempt_ne {w : UInt32} {word desired : UInt64}
    (h : attempt s w word = some desired) : desired ≠ word := by
  rintro rfl
  rcases attempt_cases s w desired with ⟨-, -, hnone⟩ | ⟨-, -, hsome⟩
    | ⟨hw, hsome⟩
  · cases hnone.symm.trans h
  · have hlower := congrArg lower (Option.some.inj (hsome.symm.trans h))
    rw [lower_pack] at hlower
    have hnat := congrArg UInt32.toNat hlower
    rw [UInt32.toNat_add, UInt32.toNat_one] at hnat
    have := (lower desired).toNat_lt
    omega
  · have hupper := congrArg upper (Option.some.inj (hsome.symm.trans h))
    rw [upper_pack] at hupper
    exact hw hupper.symm

/-- A request at a full word is rejected, and leaves the word. -/
theorem serve_of_none (hwindow : s.windowSeconds ≠ 0)
    (hkey : c.key s.makeKey = .ok key)
    (h : attempt s (toU32 (windowOf s c)) ((words.lookup key).getD 0)
      = none) :
    serve s words c = (words.insert key ((words.lookup key).getD 0),
      .rejected (rejection s key (toU32 (windowOf s c)) c.secs)) := by
  rw [Call.key] at hkey
  simp only [windowOf] at h ⊢
  simp only [serve, hkey, if_neg hwindow, thisWindowId,
    loopAlone_of_none h]

/-- Any other request is not rejected, and admitted if it completes. -/
theorem serve_of_some (hwindow : s.windowSeconds ≠ 0)
    (hkey : c.key s.makeKey = .ok key) {desired : UInt64}
    (h : attempt s (toU32 (windowOf s c)) ((words.lookup key).getD 0)
      = some desired) :
    (∀ e, (serve s words c).2 ≠ .rejected e)
      ∧ (2 ≤ c.spurious.length → (serve s words c).2.isAdmitted = true) := by
  rw [Call.key] at hkey
  simp only [windowOf] at h
  simp only [serve, hkey, if_neg hwindow, thisWindowId]
  rcases loopAlone_onSuccess_cases h (attempt_ne h) c.spurious with
    hleft | ⟨hshort, hrunning⟩
  · rw [hleft]
    refine ⟨fun e he => ?_, fun _ => rfl⟩
    cases he
  · rw [hrunning]
    refine ⟨fun e he => ?_, fun hlong => absurd hlong (by omega)⟩
    cases he

/-- A rejection found a full word. -/
theorem rejected_found (hwindow : s.windowSeconds ≠ 0) {e : Exn}
    (h : (serve s words c).2 = .rejected e) :
    ∃ key, c.key s.makeKey = .ok key
      ∧ attempt s (toU32 (windowOf s c)) ((words.lookup key).getD 0) = none
      ∧ e = rejection s key (toU32 (windowOf s c)) c.secs := by
  cases hkey : c.key s.makeKey with
  | error e' =>
      rw [Call.key] at hkey
      simp only [serve, hkey] at h
      cases h
  | ok key =>
      refine ⟨key, rfl, ?_⟩
      cases hattempt : attempt s (toU32 (windowOf s c))
          ((words.lookup key).getD 0) with
      | none =>
          rw [serve_of_none hwindow hkey hattempt] at h
          cases h
          exact ⟨rfl, rfl⟩
      | some desired =>
          exact absurd h ((serve_of_some hwindow hkey hattempt).1 e)

/-- A request of another key leaves the word. -/
theorem serve_of_other (hkey : c.key s.makeKey ≠ .ok key) :
    (serve s words c).1.lookup key = words.lookup key := by
  cases hown : c.key s.makeKey with
  | error e =>
      rw [Call.key] at hown
      simp only [serve, hown]
  | ok own =>
      have hne : key ≠ own := fun heq => hkey (heq ▸ hown)
      rw [Call.key] at hown
      simp only [serve, hown]
      split <;> exact AList.lookup_insert_ne hne

section Window

variable (hs : Valid s) (hsecs : 0 ≤ c.secs)
  (hbound : c.secs < 4294967296 - s.windowSeconds - 1)
include hs hsecs hbound

/-- The end of the clock's window, behind the clock and in range. -/
theorem window_end :
    windowOf s c * s.windowSeconds ≤ c.secs
      ∧ c.secs < (windowOf s c + 1) * s.windowSeconds
      ∧ 0 ≤ windowOf s c ∧ windowOf s c + 1 < 4294967296 := by
  have hpos := hs.window_pos
  have hdiv : windowOf s c = c.secs / s.windowSeconds :=
    Int.tdiv_eq_ediv_of_nonneg hsecs
  rw [hdiv]
  have hle : c.secs / s.windowSeconds ≤ c.secs := Int.ediv_le_self _ hsecs
  exact ⟨Int.ediv_mul_le _ (by omega), Int.lt_ediv_add_one_mul_self _ (by omega),
    Int.ediv_nonneg hsecs (by omega), by omega⟩

/-- The wait of a rejection is the time to the end of the window. -/
theorem toNat_retryAfter :
    ((retryAfter s (toU32 (windowOf s c)) c.secs).toNat : Int)
      = (windowOf s c + 1) * s.windowSeconds - c.secs := by
  obtain ⟨hstart, hend, hw, hw'⟩ := window_end hs hsecs hbound
  have hpos := hs.window_pos
  rw [Int.add_mul, Int.one_mul] at hend ⊢
  have hmul : 0 ≤ windowOf s c * s.windowSeconds :=
    Int.mul_nonneg hw (by omega)
  have hwindow : (toU32 (windowOf s c)).toNat = (windowOf s c).toNat :=
    toNat_toU32 hw (by omega)
  have hseconds : (toU32 s.windowSeconds).toNat = s.windowSeconds.toNat :=
    toNat_toU32 (by omega) (by omega)
  have hproduct : ((windowOf s c).toNat * s.windowSeconds.toNat : Nat)
      = (windowOf s c * s.windowSeconds).toNat := by
    rw [Int.toNat_mul hw (by omega)]
  have hreset : (resetTime s (toU32 (windowOf s c))).toNat
      = (windowOf s c * s.windowSeconds).toNat + s.windowSeconds.toNat := by
    rw [resetTime, UInt32.toNat_add, UInt32.toNat_mul, hwindow, hseconds,
      hproduct]
    omega
  unfold retryAfter
  simp only [hreset]
  rw [if_pos (by omega), toNat_toU32 (by omega) (by omega)]
  omega

end Window

/-- Until the end of the window it is the same window. -/
theorem windowOf_before_end (hs : Valid s) {d : Call}
    (hstart : windowOf s c * s.windowSeconds ≤ d.secs) (hd : 0 ≤ d.secs)
    (hend : d.secs < (windowOf s c + 1) * s.windowSeconds) :
    windowOf s d = windowOf s c := by
  have hpos := hs.window_pos
  have hdiv : windowOf s d = d.secs / s.windowSeconds :=
    Int.tdiv_eq_ediv_of_nonneg hd
  have hlow := (Int.le_ediv_iff_mul_le (by omega)).mpr hstart
  have hhigh := (Int.ediv_lt_iff_lt_mul (by omega)).mpr hend
  omega

/-- At its end it is the next one. -/
theorem windowOf_at_end (hs : Valid s) {d : Call} (hd0 : 0 ≤ d.secs)
    (hd : d.secs = (windowOf s c + 1) * s.windowSeconds) :
    windowOf s d = windowOf s c + 1 := by
  have hpos := hs.window_pos
  have hdiv : windowOf s d = d.secs / s.windowSeconds :=
    Int.tdiv_eq_ediv_of_nonneg hd0
  rw [hdiv, hd]
  exact Int.mul_ediv_cancel _ (by omega)

/-- What a request of the key finds behind a rejected one, after requests
that are of other keys or of its window. -/
theorem finds_rejected (hne : s.windowSeconds ≠ 0)
    (hkey : c.key s.makeKey = .ok key) {calls : List Call} {word : UInt64}
    (hword : word = ((wordsAfter (serve s) calls).lookup key).getD 0)
    (hnone : attempt s (toU32 (windowOf s c)) word = none)
    {between : List Call}
    (hall : ∀ b ∈ between, b.key s.makeKey = .ok key →
      windowOf s b = windowOf s c) :
    (wordsAfter (serve s) (calls ++ c :: between)).lookup key
      = some word := by
  rw [wordsAfter_append]
  refine lookup_foldl (P := fun b => b.key s.makeKey = .ok key →
    windowOf s b = windowOf s c) (fun words b hb hlookup => ?_) between _
    hall ?_
  · by_cases hown : b.key s.makeKey = .ok key
    · have hfull : attempt s (toU32 (windowOf s b))
          ((words.lookup key).getD 0) = none := by
        rw [hb hown, hlookup, Option.getD_some]
        exact hnone
      rw [serve_of_none hne hown hfull, AList.lookup_insert, hlookup,
        Option.getD_some]
    · rw [serve_of_other hown]
      exact hlookup
  · show (serve s (wordsAfter (serve s) calls) c).1.lookup key = some word
    rw [serve_of_none hne hkey (hword ▸ hnone), AList.lookup_insert, hword]

/-- The fixed window's waits are exact. -/
theorem exactWait (hs : Valid s) {calls : List Call} {e : Exn}
    (hcalls : InTime (calls ++ [c]))
    (hbound : c.secs < 4294967296 - s.windowSeconds - 1)
    (h : (serve s (wordsAfter (serve s) calls) c).2 = .rejected e) :
    ExactWait (serve s) s.makeKey calls c e
      (retryAfter s (toU32 (windowOf s c)) c.secs).toNat := by
  have hpos := hs.window_pos
  have hne : s.windowSeconds ≠ 0 := by omega
  have hclock := hcalls.clocks c (by simp)
  have hsecs : 0 ≤ c.secs := by omega
  obtain ⟨hstart, hend, hw, hw'⟩ := window_end hs hsecs hbound
  have hwait := toNat_retryAfter hs hsecs hbound
  obtain ⟨key, hkey, hnone, rfl⟩ := rejected_found hne h
  obtain ⟨word, hword⟩ : ∃ word, word = ((wordsAfter (serve s) calls).lookup
    key).getD 0 := ⟨_, rfl⟩
  rw [← hword] at hnone
  refine ⟨retryAfterOf_rejection _ _, by omega, ?_, ?_⟩
  -- At the end of the window its count is of no matter.
  · intro between d htime hsame hothers hat hcompletes
    have hd : d.secs = (windowOf s c + 1) * s.windowSeconds := by omega
    have hfound := finds_rejected hne hkey hword hnone fun b hb hown =>
      absurd (hown.trans hkey.symm) (hothers b hb)
    cases hattempt : attempt s (toU32 (windowOf s d))
        (((wordsAfter (serve s) (calls ++ c :: between)).lookup key).getD 0)
      with
    | none =>
        -- The word would be of two windows.
        rw [hfound, Option.getD_some, windowOf_at_end hs (by omega) hd,
          attempt_none_iff] at hattempt
        have hwindows := hattempt.1.symm.trans (attempt_none_iff.mp hnone).1
        have hnat := congrArg UInt32.toNat hwindows
        rw [toNat_toU32 (by omega) hw', toNat_toU32 hw (by omega)] at hnat
        omega
    | some desired =>
        exact (serve_of_some hne (hsame.trans hkey) hattempt).2 hcompletes.1
  -- Before it all requests are of the same window, which is full.
  · intro between d htime hsame hbefore
    obtain ⟨hbetween, hcd⟩ := htime.between
    have hwindow : ∀ b : Call, c.secs ≤ b.secs → b.secs ≤ d.secs →
        windowOf s b = windowOf s c := fun b hcb hbd =>
      windowOf_before_end hs (by omega) (by omega) (by omega)
    have hfound := finds_rejected hne hkey hword hnone fun b hb _ =>
      hwindow b (hbetween b hb).1 (hbetween b hb).2
    refine ⟨_, congrArg Prod.snd (serve_of_none hne (hsame.trans hkey) ?_)⟩
    rw [hfound, Option.getD_some, hwindow d hcd (Int.le_refl _)]
    exact hnone

end FixedWindow

-- ====================================================== the token bucket

namespace TokenBucket

variable {s : TokenBucketSetting} {words : Words} {c : Call} {key : Bytes}

/-- The body throws where there is no token. -/
theorem attempt_none_iff {secs : UInt32} {word : UInt64} :
    attempt s secs word = none ↔ (newTokens s secs word).toNat = 0 := by
  have hlt : newTokens s secs word < 1
      ↔ (newTokens s secs word).toNat = 0 := by
    rw [UInt64.lt_iff_toNat_lt, UInt64.toNat_one, Nat.lt_one_iff]
  rw [← hlt, attempt]
  by_cases hnone : newTokens s secs word < 1
  · exact iff_of_true (if_pos hnone) hnone
  · simp [hnone]

/-- A desired word is stamped with the refill's second. -/
theorem lower_of_attempt {secs : UInt32} {word desired : UInt64}
    (h : attempt s secs word = some desired) :
    lower desired = newRefill secs word := by
  simp only [attempt] at h
  split at h
  next => cases h
  next =>
    cases h
    exact lower_pack _ _

/-- A request that finds no token is rejected, and leaves the word. -/
theorem serve_of_none (hkey : c.key s.makeKey = .ok key)
    (h : attempt s (toU32 c.secs) (wordFor s words key c) = none) :
    serve s words c = (words.insert key (wordFor s words key c),
      .rejected (rejection s c.ip c.request (toU32 c.secs)
        (wordFor s words key c))) :=
  serve_of_empty hkey (attempt_none_iff.mp h)

/-- Any other request is not rejected, is admitted if it completes, and
leaves the word or the desired one. -/
theorem serve_of_some (hkey : c.key s.makeKey = .ok key)
    {desired : UInt64}
    (h : attempt s (toU32 c.secs) (wordFor s words key c) = some desired) :
    (∀ e, (serve s words c).2 ≠ .rejected e)
      ∧ (false ∈ c.spurious → (serve s words c).2.isAdmitted = true)
      ∧ ((serve s words c).1 = words.insert key desired
        ∨ (serve s words c).1
          = words.insert key (wordFor s words key c)) := by
  rw [Call.key] at hkey
  unfold wordFor at h ⊢
  rcases loopAlone_onFailure_cases h c.spurious with
    hleft | ⟨hfails, hrunning⟩
  · simp only [serve, hkey, hleft]
    refine ⟨fun e he => ?_, fun _ => rfl, Or.inl trivial⟩
    cases he
  · simp only [serve, hkey, hrunning]
    refine ⟨fun e he => ?_, fun hin => absurd hin hfails, Or.inr trivial⟩
    cases he

/-- A rejection found no token. -/
theorem rejected_found {e : Exn} (h : (serve s words c).2 = .rejected e) :
    ∃ key, c.key s.makeKey = .ok key
      ∧ attempt s (toU32 c.secs) (wordFor s words key c) = none
      ∧ e = rejection s c.ip c.request (toU32 c.secs)
        (wordFor s words key c) := by
  cases hkey : c.key s.makeKey with
  | error e' =>
      rw [Call.key] at hkey
      simp only [serve, hkey] at h
      cases h
  | ok key =>
      refine ⟨key, rfl, ?_⟩
      cases hattempt : attempt s (toU32 c.secs) (wordFor s words key c) with
      | none =>
          rw [serve_of_none hkey hattempt] at h
          cases h
          exact ⟨rfl, rfl⟩
      | some desired =>
          exact absurd h ((serve_of_some hkey hattempt).1 e)

/-- A request changes the word of its own key only: it leaves the one it
found or the one it desired. -/
theorem serve_words (words : Words) (c : Call) :
    (∃ e, c.key s.makeKey = .error e ∧ (serve s words c).1 = words)
      ∨ ∃ own word, c.key s.makeKey = .ok own
        ∧ (serve s words c).1 = words.insert own word
        ∧ (word = wordFor s words own c ∨ attempt s (toU32 c.secs)
          (wordFor s words own c) = some word) := by
  cases hkey : c.key s.makeKey with
  | error e =>
      refine Or.inl ⟨e, rfl, ?_⟩
      rw [Call.key] at hkey
      simp only [serve, hkey]
  | ok own =>
      right
      cases hattempt : attempt s (toU32 c.secs) (wordFor s words own c) with
      | none =>
          exact ⟨own, wordFor s words own c, rfl,
            congrArg Prod.fst (serve_of_none hkey hattempt), Or.inl rfl⟩
      | some desired =>
          rcases (serve_of_some hkey hattempt).2.2 with hnew | hold
          · exact ⟨own, desired, rfl, hnew, Or.inr hattempt⟩
          · exact ⟨own, _, rfl, hold, Or.inl rfl⟩

-- =========================================================== the stamps

/-- No stamp is behind a second. -/
def Stamped (t : Int) (words : Words) : Prop :=
  ∀ key word, words.lookup key = some word →
    ((lower word).toNat : Int) ≤ t

section Clock

variable {t : Int} (hs : Valid s) (ht : t < 4294967296)
include hs ht

/-- The word a request finds is stamped no later than its clock. -/
theorem stamp_wordFor (h : Stamped t words)
    (hc : 0 ≤ c.created ∧ c.created ≤ t) (key : Bytes) :
    ((lower (wordFor s words key c)).toNat : Int) ≤ t := by
  have hpos := hs.capacity_pos
  unfold wordFor
  cases hword : words.lookup key with
  | some word => exact h key word hword
  | none =>
      rw [Option.getD_none, lower_newBucket (by omega) hs.capacity_int,
        toNat_toU32 hc.1 (by omega), Int.toNat_of_nonneg hc.1]
      exact hc.2

/-- A request leaves no stamp behind its clock. -/
theorem stamped_serve (h : Stamped t words)
    (hc : 0 ≤ c.created ∧ c.created ≤ c.secs) (hsecs : c.secs ≤ t) :
    Stamped t (serve s words c).1 := by
  rcases serve_words (s := s) words c with ⟨-, -, hsame⟩
    | ⟨own, word, -, hinsert, hword⟩
  · rw [hsame]
    exact h
  · have hfound := stamp_wordFor hs ht h
      ⟨hc.1, Int.le_trans hc.2 hsecs⟩ own
    have hle : ((lower word).toNat : Int) ≤ t := by
      rcases hword with rfl | hdesired
      · exact hfound
      · have hmoved := elapsed_eq (toU32 c.secs) (wordFor s words own c)
        have hclock : (toU32 c.secs).toNat = c.secs.toNat :=
          toNat_toU32 (by omega) (by omega)
        rw [toNat_elapsed, hclock] at hmoved
        rw [lower_of_attempt hdesired, hmoved]
        omega
    intro key word' hlookup
    rw [hinsert] at hlookup
    by_cases hkey : key = own
    · subst hkey
      rw [AList.lookup_insert] at hlookup
      cases hlookup
      exact hle
    · rw [AList.lookup_insert_ne hkey] at hlookup
      exact h key word' hlookup

/-- Neither do requests one after the other. -/
theorem stamps_le :
    ∀ (calls : List Call) (words : Words), Stamped t words →
      (∀ c ∈ calls, (0 ≤ c.created ∧ c.created ≤ c.secs) ∧ c.secs ≤ t) →
      Stamped t (calls.foldl (fun words c => (serve s words c).1) words) := by
  intro calls
  induction calls with
  | nil => exact fun _ h _ => h
  | cons c rest ih =>
      intro words h hall
      obtain ⟨hc, hsecs⟩ := hall c List.mem_cons_self
      exact ih _ (stamped_serve hs ht h hc hsecs)
        fun d hd => hall d (List.mem_cons_of_mem _ hd)

end Clock

-- ============================================================= the wait

section Wait

variable (hs : Valid s) {now : Int} {word : UInt64}
  (hstamp : ((lower word).toNat : Int) ≤ now) (hnow : now < 4294967295)
include hstamp hnow

/-- The wait of a rejection is one second. -/
theorem toNat_delay :
    (delay (toU32 now) (newRefill (toU32 now) word)).toNat = 1 := by
  have hclock : (toU32 now).toNat = now.toNat :=
    toNat_toU32 (by omega) (by omega)
  have hrefill : newRefill (toU32 now) word = toU32 now := by
    apply UInt32.toNat_inj.mp
    rw [elapsed_eq, toNat_elapsed, hclock]
    omega
  have hnext : (toU32 now + 1).toNat = now.toNat + 1 := by
    rw [UInt32.toNat_add, hclock, UInt32.toNat_one]
    omega
  have hlater : toU32 now + 1 > toU32 now := by
    rw [gt_iff_lt, UInt32.lt_iff_toNat_lt, hnext, hclock]
    omega
  rw [hrefill, delay, if_pos hlater,
    UInt32.toNat_sub_of_le _ _ (UInt32.le_of_lt hlater), hnext, hclock]
  omega

include hs

/-- A second after there was no token there is one: the sum of 32 bits
was zero, and is the rate. -/
theorem newTokens_next (hrate : 1 ≤ s.refillRate)
    (hnone : (newTokens s (toU32 now) word).toNat = 0) :
    1 ≤ (newTokens s (toU32 (now + 1)) word).toNat := by
  have hpos := hs.capacity_pos
  have hcap := hs.capacity_int
  have hint := hs.rate_int
  have hclock : (toU32 now).toNat = now.toNat :=
    toNat_toU32 (by omega) (by omega)
  have hclock' : (toU32 (now + 1)).toNat = now.toNat + 1 := by
    rw [toNat_toU32 (by omega) (by omega)]
    omega
  have hrate' : (toU32 s.refillRate).toNat = s.refillRate.toNat :=
    toNat_toU32 (by omega) (by omega)
  have hseconds : now.toNat + 1 - (lower word).toNat
      = now.toNat - (lower word).toNat + 1 := by omega
  rw [toNat_newTokens (by omega) hcap, toNat_elapsed, hclock, hrate']
    at hnone
  rw [toNat_newTokens (by omega) hcap, toNat_elapsed, hclock', hrate',
    hseconds, Nat.mul_add, Nat.mul_one]
  generalize s.refillRate.toNat * (now.toNat - (lower word).toNat)
    = refill at hnone ⊢
  omega

end Wait

/-- What a request of the key finds behind a rejected one, after requests
that are of other keys or of its second. -/
theorem finds_rejected (hkey : c.key s.makeKey = .ok key)
    {calls : List Call} {word : UInt64}
    (hword : word = wordFor s (wordsAfter (serve s) calls) key c)
    (hnone : attempt s (toU32 c.secs) word = none) {between : List Call}
    (hall : ∀ b ∈ between, b.key s.makeKey = .ok key → b.secs = c.secs)
    (d : Call) :
    wordFor s (wordsAfter (serve s) (calls ++ c :: between)) key d
      = word := by
  have hlookup : (wordsAfter (serve s) (calls ++ c :: between)).lookup key
      = some word := by
    rw [wordsAfter_append]
    -- The calls in between leave the word as it is: they are another key's,
    -- or of the same second and find as little.
    refine lookup_foldl (P := fun b => b.key s.makeKey = .ok key →
      b.secs = c.secs) (fun words b hb hlookup => ?_) between _ hall ?_
    · have hfound : wordFor s words key b = word := by
        rw [wordFor, hlookup, Option.getD_some]
      rcases serve_words (s := s) words b with ⟨-, -, hsame⟩
        | ⟨own, word', hown, hinsert, hword'⟩
      · rw [hsame]
        exact hlookup
      · rw [hinsert]
        by_cases hsame : key = own
        · subst hsame
          rw [hb hown, hfound, hnone] at hword'
          rw [AList.lookup_insert]
          rcases hword' with rfl | hsome
          · rfl
          · cases hsome
        · rw [AList.lookup_insert_ne hsame]
          exact hlookup
    · show (serve s (wordsAfter (serve s) calls) c).1.lookup key = some word
      rw [serve_of_none hkey (hword ▸ hnone), AList.lookup_insert, hword]
  rw [wordFor, hlookup, Option.getD_some]

/-- The token bucket's waits are exact. -/
theorem exactWait (hs : Valid s) (hrate : 1 ≤ s.refillRate)
    {calls : List Call} {e : Exn} (hcalls : InTime (calls ++ [c]))
    (hbound : c.secs < 4294967295)
    (h : (serve s (wordsAfter (serve s) calls) c).2 = .rejected e) :
    ExactWait (serve s) s.makeKey calls c e 1 := by
  obtain ⟨key, hkey, hnone, rfl⟩ := rejected_found h
  have hclock := hcalls.clocks c (by simp)
  have hbefore : ∀ d ∈ calls,
      (0 ≤ d.created ∧ d.created ≤ d.secs) ∧ d.secs ≤ c.secs := by
    intro d hd
    have horder := (List.pairwise_append.mp hcalls.in_order).2.2 d hd c
      (by simp)
    exact ⟨hcalls.clocks d (by simp [hd]), Int.le_trans horder hclock.2⟩
  have hstamps : Stamped c.secs (wordsAfter (serve s) calls) :=
    stamps_le hs (by omega) calls ∅
      (fun key word hlookup => by cases hlookup) hbefore
  have hstamp := stamp_wordFor hs (c := c) (by omega) hstamps hclock key
  obtain ⟨word, hword⟩ : ∃ word,
    word = wordFor s (wordsAfter (serve s) calls) key c := ⟨_, rfl⟩
  rw [← hword] at hnone hstamp ⊢
  have hempty := attempt_none_iff.mp hnone
  refine ⟨?_, Nat.le_refl 1, ?_, ?_⟩
  · have hdelay := toNat_delay hstamp hbound
    rw [rejection, retryAfterOf_rejection, hdelay]
  -- A second later there is a token.
  · intro between d htime hsame hothers hat hcompletes
    have hfound := finds_rejected hkey hword hnone (fun b hb hown =>
      absurd (hown.trans hkey.symm) (hothers b hb)) d
    have htoken := newTokens_next hs hstamp hbound hrate hempty
    cases hattempt : attempt s (toU32 d.secs)
        (wordFor s (wordsAfter (serve s) (calls ++ c :: between)) key d) with
    | none =>
        rw [hfound, attempt_none_iff, hat] at hattempt
        exact absurd (htoken.trans_eq hattempt) (by decide)
    | some desired =>
        exact (serve_of_some (hsame.trans hkey) hattempt).2.1 hcompletes.2
  -- Before that it is still the same second.
  · intro between d htime hsame hbefore
    obtain ⟨hbetween, hcd⟩ := htime.between
    have hat : d.secs = c.secs := by omega
    have hsecond : ∀ b ∈ between, b.key s.makeKey = .ok key →
        b.secs = c.secs := fun b hb _ => by
      have := hbetween b hb
      omega
    have hfound := finds_rejected hkey hword hnone hsecond d
    refine ⟨_, congrArg Prod.snd (serve_of_none (hsame.trans hkey) ?_)⟩
    rw [hfound, hat]
    exact hnone

end TokenBucket

-- ========================================================= both limiters

/-- Every `Retry-After` a rejection carries is exact. -/
theorem retry_after_exact :
    (∀ s : FixedWindowSetting, FixedWindow.Valid s →
      ∀ calls c e, InTime (calls ++ [c]) →
        c.secs < 4294967296 - s.windowSeconds - 1 →
        (FixedWindow.serve s (wordsAfter (FixedWindow.serve s) calls) c).2
          = .rejected e →
        ∃ r, ExactWait (FixedWindow.serve s) s.makeKey calls c e r)
      ∧ ∀ s : TokenBucketSetting, TokenBucket.Valid s → 1 ≤ s.refillRate →
        ∀ calls c e, InTime (calls ++ [c]) → c.secs < 4294967296 - 1 →
          (TokenBucket.serve s (wordsAfter (TokenBucket.serve s) calls) c).2
            = .rejected e →
          ∃ r, ExactWait (TokenBucket.serve s) s.makeKey calls c e r := by
  refine ⟨fun s hs calls c e hcalls hbound h => ?_,
    fun s hs hrate calls c e hcalls hbound h => ?_⟩
  · exact ⟨_, FixedWindow.exactWait hs hcalls hbound h⟩
  · exact ⟨1, TokenBucket.exactWait hs hrate hcalls (by omega) h⟩

/-- A request, made twice in one second where one is allowed. -/
def tenPast : Call :=
  { secs := 70, created := 70, spurious := [false, false] }

/-- The second time it is told the end of the minute by one limiter, and
the next second by the other. -/
theorem retry_after_exact_twice :
    (∃ e r, ExactWait (FixedWindow.serve { maxRequests := 1 }) .ip
        [tenPast] tenPast e r)
      ∧ ∃ e r, ExactWait (TokenBucket.serve { capacity := 1 }) .ip
        [tenPast] tenPast e r := by
  have htime : InTime ([tenPast] ++ [tenPast]) := by
    refine ⟨fun c hc => ?_, by simp [tenPast]⟩
    simp only [List.cons_append, List.nil_append, List.mem_cons,
      List.not_mem_nil, or_false, or_self] at hc
    rw [hc]
    decide
  have hfixed : FixedWindow.Valid { maxRequests := 1 } :=
    ⟨by decide, by decide, by decide⟩
  have hbucket : TokenBucket.Valid { capacity := 1 } :=
    ⟨by decide, by decide, by decide, by decide⟩
  exact ⟨⟨_, retry_after_exact.1 _ hfixed _ _ _ htime (by decide) rfl⟩,
    ⟨_, retry_after_exact.2 _ hbucket (by decide) _ _ _ htime (by decide)
      rfl⟩⟩

end CgiWebServer
