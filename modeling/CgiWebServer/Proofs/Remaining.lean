/-
What `X-RateLimit-Remaining` promises is kept.

Within a window, or a second of a bucket's clock, a word is a budget
(`spends`): every attempt of its key takes one from it while there is
some, and nothing else changes it, since the requests of other keys have
words of their own. The header of an admitted response is what the
admission has left in the word. So of the key's further requests in the
window or the second exactly that many are admitted, and they are the
first ones.
-/
import CgiWebServer.Lib.Budget
import CgiWebServer.Proofs.KeyIsolation

namespace CgiWebServer

open Keyed Budget

-- ============================================================ the limiters

/-- What is left in a word: requests of its window, or tokens. -/
def Limiter.left : Limiter → UInt64 → Nat
  | .fixedWindow s => fun word =>
      (toU32 s.maxRequests).toNat - (lower word).toNat
  | .tokenBucket _ => fun word => (upper word).toNat

/-- A second at which a word is what is left: it is in the word's window,
or not past the word's stamp. -/
def Limiter.Now : Limiter → Int → UInt64 → Prop
  | .fixedWindow s => fun secs word =>
      upper word = FixedWindow.thisWindowId s secs
  | .tokenBucket s => fun secs word =>
      (toU32 secs).toNat ≤ (lower word).toNat
        ∧ (upper word).toNat + 1 ≤ s.capacity.toNat

/-- A second at which the limit of another has not been renewed. -/
def Limiter.SamePeriod : Limiter → Int → Int → Prop
  | .fixedWindow s => fun first secs =>
      FixedWindow.thisWindowId s first = FixedWindow.thisWindowId s secs
  | .tokenBucket _ => fun first secs =>
      (toU32 secs).toNat ≤ (toU32 first).toNat

/-- A request whose loop no other one disturbs, with the time to end. -/
def Limiter.Alone (c : Call) : Limiter → Prop
  | .fixedWindow _ =>
      ∃ turns, 2 ≤ turns ∧ c.spurious = List.replicate turns false
  | .tokenBucket _ => false ∈ c.spurious

-- ============================================================== the budget

namespace FixedWindow

variable {s : FixedWindowSetting}

/-- A count below the limit goes up by one. -/
theorem toNat_lower_succ {count : UInt32}
    (hroom : count < toU32 s.maxRequests) :
    (count + 1).toNat = count.toNat + 1 := by
  have hlt := UInt32.lt_iff_toNat_lt.mp hroom
  have hmax := (toU32 s.maxRequests).toNat_lt
  rw [UInt32.toNat_add, UInt32.toNat_one]
  exact Nat.mod_eq_of_lt (by omega)

theorem spends (s : FixedWindowSetting) :
    Spends (fun secs => (Limiter.fixedWindow s).attempt secs)
      (Limiter.fixedWindow s).left (Limiter.fixedWindow s).Now := by
  refine ⟨fun {secs word} hnow hzero => ?_, fun {secs word} hnow hpos => ?_⟩
  · have hnow : upper word = thisWindowId s secs := hnow
    have hzero : (toU32 s.maxRequests).toNat - (lower word).toNat = 0 :=
      hzero
    exact attempt_none_iff.mpr
      ⟨hnow, UInt32.le_iff_toNat_le.mpr (by omega)⟩
  · have hnow : upper word = thisWindowId s secs := hnow
    have hpos : 0 < (toU32 s.maxRequests).toNat - (lower word).toNat := hpos
    have hroom : lower word < toU32 s.maxRequests :=
      UInt32.lt_iff_toNat_lt.mpr (by omega)
    rcases attempt_cases s (thisWindowId s secs) word with
      ⟨-, hfull, -⟩ | ⟨-, -, hsome⟩ | ⟨hother, -⟩
    · exact absurd hroom (UInt32.not_lt.mpr hfull)
    · refine ⟨_, hsome, ?_, fun j hj => ?_⟩
      · show (toU32 s.maxRequests).toNat - (lower (pack _ _)).toNat + 1 = _
        rw [lower_pack, toNat_lower_succ hroom]
        show _ = (toU32 s.maxRequests).toNat - (lower word).toNat
        omega
      · have hj : upper word = thisWindowId s j := hj
        show upper (pack _ _) = thisWindowId s j
        rw [upper_pack, ← hnow, hj]
    · exact absurd hnow hother

/-- What an attempt leaves is in its window, and what it leaves of the
limit is what the header says. -/
theorem left_of_attempt (hs : Valid s) {secs : Int} {word desired : UInt64}
    (h : attempt s (thisWindowId s secs) word = some desired) :
    upper desired = thisWindowId s secs
      ∧ (toU32 s.maxRequests - lower desired).toNat
        = (Limiter.fixedWindow s).left desired := by
  have hmax : (toU32 s.maxRequests).toNat = s.maxRequests.toNat :=
    toNat_toU32 (by have := hs.max_pos; omega)
      (by have := hs.max_int; omega)
  have hpos := hs.max_pos
  have hwithin : upper desired = thisWindowId s secs
      ∧ lower desired ≤ toU32 s.maxRequests := by
    rcases attempt_cases s (thisWindowId s secs) word with
      ⟨-, -, hnone⟩ | ⟨-, hroom, hsome⟩ | ⟨-, hsome⟩
    · cases hnone.symm.trans h
    · obtain rfl := Option.some.inj (hsome.symm.trans h)
      refine ⟨upper_pack _ _, UInt32.le_iff_toNat_le.mpr ?_⟩
      have hlt := UInt32.lt_iff_toNat_lt.mp hroom
      rw [lower_pack, toNat_lower_succ hroom]
      omega
    · obtain rfl := Option.some.inj (hsome.symm.trans h)
      refine ⟨upper_pack _ _, UInt32.le_iff_toNat_le.mpr ?_⟩
      rw [lower_pack, UInt32.toNat_one]
      omega
  exact ⟨hwithin.1, UInt32.toNat_sub_of_le _ _ hwithin.2⟩

/-- A request with a key is one attempt at its word. -/
theorem serve_attempt (hs : Valid s) (words : Words) {c : Call}
    {key : Bytes} (hkey : c.key s.makeKey = .ok key)
    (halone : (Limiter.fixedWindow s).Alone c) :
    ((serve s words c).2.isAdmitted
        = (attempt s (thisWindowId s c.secs)
            ((words.lookup key).getD 0)).isSome)
      ∧ (∀ desired, attempt s (thisWindowId s c.secs)
            ((words.lookup key).getD 0) = some desired →
          (serve s words c).2.header remainingHeader
            = some (toStr (toU32 s.maxRequests - lower desired).toNat))
      ∧ (serve s words c).1.lookup key
        = some ((attempt s (thisWindowId s c.secs)
            ((words.lookup key).getD 0)).getD
              ((words.lookup key).getD 0)) := by
  have hwindow : s.windowSeconds ≠ 0 := by
    have := hs.window_pos
    omega
  cases hattempt : attempt s (thisWindowId s c.secs)
      ((words.lookup key).getD 0) with
  | none =>
      rw [serve_of_none hwindow hkey hattempt]
      exact ⟨rfl, nofun, AList.lookup_insert _⟩
  | some desired =>
      -- No exchange fails by chance, and there are the two turns the loop
      -- needs: one stores, the next sees the word changed and leaves.
      obtain ⟨turns, hturns, hlist⟩ := halone
      obtain ⟨rest, hrest⟩ :
          ∃ rest, c.spurious = false :: false :: rest := by
        obtain ⟨more, rfl⟩ := Nat.exists_eq_add_of_le' hturns
        exact ⟨_, hlist⟩
      have hloop := loopAlone_onSuccess hattempt (attempt_ne hattempt) rest
      rw [Call.key] at hkey
      simp only [serve, hkey, if_neg hwindow, hrest, hloop]
      refine ⟨rfl, ?_, AList.lookup_insert _⟩
      intro desired' heq
      obtain rfl := Option.some.inj heq
      rfl

end FixedWindow

namespace TokenBucket

variable {s : TokenBucketSetting}

/-- What an attempt leaves is one token less than it may have. -/
theorem upper_of_attempt (hs : Valid s) {secs : UInt32}
    {word desired : UInt64} (h : attempt s secs word = some desired) :
    (upper desired).toNat + 1 = (newTokens s secs word).toNat := by
  have hpos := hs.capacity_pos
  have hint := hs.capacity_int
  have hle := (newTokens_le (by omega) hint secs word).1
  simp only [attempt] at h
  split at h
  next => cases h
  next hsome =>
    obtain rfl := Option.some.inj h
    have hone : (1 : UInt64) ≤ newTokens s secs word := UInt64.not_lt.mp hsome
    have hnat : 1 ≤ (newTokens s secs word).toNat :=
      UInt64.le_iff_toNat_le.mp hone
    rw [upper_pack, UInt64.toNat_toUInt32, UInt64.toNat_sub_of_le _ _ hone,
      UInt64.toNat_one, Nat.mod_eq_of_lt (by omega)]
    omega

theorem spends (hs : Valid s) :
    Spends (fun secs => (Limiter.tokenBucket s).attempt secs)
      (Limiter.tokenBucket s).left (Limiter.tokenBucket s).Now := by
  have hpos := hs.capacity_pos
  -- Up to the stamp nothing is refilled.
  have hsame : ∀ {secs : Int} {word : UInt64},
      (Limiter.tokenBucket s).Now secs word →
        (newTokens s (toU32 secs) word).toNat = (upper word).toNat := by
    rintro secs word ⟨hstamp, hroom⟩
    refine newTokens_of_no_refill hs hroom ?_
    rw [Nat.sub_eq_zero_of_le hstamp, Nat.mul_zero]
  refine ⟨fun {secs word} hnow hzero => ?_, fun {secs word} hnow hleft => ?_⟩
  · have hzero : (upper word).toNat = 0 := hzero
    exact attempt_none_iff.mpr ((hsame hnow).trans hzero)
  · have hleft : 0 < (upper word).toNat := hleft
    obtain ⟨hstamp, hroom⟩ := hnow
    cases hattempt : attempt s (toU32 secs) word with
    | none =>
        have hnone := attempt_none_iff.mp hattempt
        rw [hsame ⟨hstamp, hroom⟩] at hnone
        omega
    | some desired =>
        obtain ⟨-, hbelow, -⟩ :=
          attempt_some (by omega) hs.capacity_int hattempt
        have hlower := toNat_lower_of_attempt hattempt
        have hupper : (upper desired).toNat + 1 = (upper word).toNat := by
          have htaken := upper_of_attempt hs hattempt
          rw [hsame ⟨hstamp, hroom⟩] at htaken
          exact htaken
        refine ⟨desired, hattempt, hupper, ?_⟩
        rintro j ⟨hj, -⟩
        exact ⟨by omega, by omega⟩

/-- What an attempt leaves is stamped no earlier than its clock, has room
for one, and is what the header says. -/
theorem left_of_attempt (hs : Valid s) {secs : Int} {word desired : UInt64}
    (h : attempt s (toU32 secs) word = some desired) :
    (toU32 secs).toNat ≤ (lower desired).toNat
      ∧ (upper desired).toNat + 1 ≤ s.capacity.toNat := by
  have hpos := hs.capacity_pos
  have hlower := toNat_lower_of_attempt h
  obtain ⟨hroom, -, -⟩ := attempt_some (by omega) hs.capacity_int h
  exact ⟨by omega, hroom⟩

/-- A request with a key is one attempt at its word. -/
theorem serve_attempt (words : Words) {c : Call} {key : Bytes}
    (hkey : c.key s.makeKey = .ok key)
    (halone : (Limiter.tokenBucket s).Alone c) :
    ((serve s words c).2.isAdmitted
        = (attempt s (toU32 c.secs) (wordFor s words key c)).isSome)
      ∧ (∀ desired, attempt s (toU32 c.secs) (wordFor s words key c)
            = some desired →
          (serve s words c).2.header remainingHeader
            = some (toStr (upper desired).toNat))
      ∧ (serve s words c).1.lookup key
        = some ((attempt s (toU32 c.secs) (wordFor s words key c)).getD
            (wordFor s words key c)) := by
  cases hattempt : attempt s (toU32 c.secs) (wordFor s words key c) with
  | none =>
      rw [serve_of_none hkey hattempt]
      exact ⟨rfl, nofun, AList.lookup_insert _⟩
  | some desired =>
      unfold wordFor at hattempt ⊢
      rcases loopAlone_onFailure_cases hattempt c.spurious with
        hleft | ⟨hfails, -⟩
      · rw [Call.key] at hkey
        simp only [serve, hkey, hleft]
        refine ⟨rfl, ?_, AList.lookup_insert _⟩
        intro desired' heq
        obtain rfl := Option.some.inj heq
        rfl
      · exact absurd halone hfails

end TokenBucket

-- ============================================================ any limiter

/-- A limiter's word is a budget. -/
theorem limiter_spends {l : Limiter} (hl : l.Valid) :
    Spends (fun secs => l.attempt secs) l.left l.Now := by
  cases l with
  | fixedWindow s => exact FixedWindow.spends s
  | tokenBucket s => exact TokenBucket.spends hl

/-- A request whose key has a word is one attempt at it. -/
theorem serve_attempt {l : Limiter} (hl : l.Valid) {words : Words}
    {c : Call} {key : Bytes} {word : UInt64}
    (hkey : c.key l.makeKey = .ok key) (halone : l.Alone c)
    (hword : words.lookup key = some word) :
    (l.serve words c).2.isAdmitted = (l.attempt c.secs word).isSome
      ∧ (l.serve words c).1.lookup key
        = some ((l.attempt c.secs word).getD word) := by
  cases l with
  | fixedWindow s =>
      obtain ⟨hadmitted, -, hlookup⟩ :=
        FixedWindow.serve_attempt hl words hkey halone
      rw [hword, Option.getD_some] at hadmitted hlookup
      exact ⟨hadmitted, hlookup⟩
  | tokenBucket s =>
      obtain ⟨hadmitted, -, hlookup⟩ :=
        TokenBucket.serve_attempt words hkey halone
      have hfound : TokenBucket.wordFor s words key c = word := by
        rw [TokenBucket.wordFor, hword, Option.getD_some]
      rw [hfound] at hadmitted hlookup
      exact ⟨hadmitted, hlookup⟩

/-- The requests of one key are a run of attempts at its word. -/
theorem verdicts_outcomes {l : Limiter} (hl : l.Valid) {key : Bytes}
    (calls : List Call) :
    ∀ {words : Words} {word : UInt64}, words.lookup key = some word →
      (∀ c ∈ calls, c.key l.makeKey = .ok key ∧ l.Alone c) →
      (trace l.serve words calls).map (·.2.isAdmitted)
        = outcomes (fun secs => l.attempt secs) (calls.map (·.secs))
          word := by
  induction calls with
  | nil => exact fun _ _ => rfl
  | cons c rest ih =>
      intro words word hword hall
      obtain ⟨hkey, halone⟩ := hall c List.mem_cons_self
      obtain ⟨hadmitted, hnext⟩ := serve_attempt hl hkey halone hword
      rw [trace, List.map_cons, List.map_cons, outcomes, hadmitted,
        ih hnext fun d hd => hall d (List.mem_cons_of_mem _ hd)]

/-- An admission leaves in the word what its header says, and the word is
good until the limit is renewed. -/
theorem admitted_leaves {l : Limiter} (hl : l.Valid) {words : Words}
    {c : Call} {key : Bytes} (hkey : c.key l.makeKey = .ok key)
    (halone : l.Alone c) (hadmitted : (l.serve words c).2.isAdmitted = true) :
    ∃ word, (l.serve words c).1.lookup key = some word
      ∧ (l.serve words c).2.header remainingHeader
        = some (toStr (l.left word))
      ∧ ∀ secs, l.SamePeriod c.secs secs → l.Now secs word := by
  cases l with
  | fixedWindow s =>
      obtain ⟨hsome, hheader, hlookup⟩ :=
        FixedWindow.serve_attempt hl words hkey halone
      obtain ⟨desired, hattempt⟩ :=
        Option.isSome_iff_exists.mp (hsome.symm.trans hadmitted)
      obtain ⟨hwindow, hleft⟩ := FixedWindow.left_of_attempt hl hattempt
      rw [hattempt, Option.getD_some] at hlookup
      refine ⟨desired, hlookup, ?_, fun secs hsame => ?_⟩
      · rw [← hleft]
        exact hheader desired hattempt
      · exact hwindow.trans hsame
  | tokenBucket s =>
      obtain ⟨hsome, hheader, hlookup⟩ :=
        TokenBucket.serve_attempt words hkey halone
      obtain ⟨desired, hattempt⟩ :=
        Option.isSome_iff_exists.mp (hsome.symm.trans hadmitted)
      obtain ⟨hstamp, hroom⟩ := TokenBucket.left_of_attempt hl hattempt
      rw [hattempt, Option.getD_some] at hlookup
      refine ⟨desired, hlookup, hheader desired hattempt, ?_⟩
      intro secs hsame
      exact ⟨Nat.le_trans hsame hstamp, hroom⟩

/-- Whatever the limiter has seen: of the requests of a key that follow
an admitted one before its limit is renewed, requests of other keys
between them or not, as many are admitted as the admitted one's
`X-RateLimit-Remaining` said, and they are the first. -/
theorem remaining_is_exact {l : Limiter} (hl : l.Valid) (words : Words)
    {c : Call} {key : Bytes} {more : List Call}
    (hkey : c.key l.makeKey = .ok key)
    (halone : ∀ d ∈ c :: more, l.Alone d)
    (hadmitted : (l.serve words c).2.isAdmitted = true)
    (hperiod : ∀ d ∈ more, d.key l.makeKey = .ok key →
      l.SamePeriod c.secs d.secs) :
    ∃ remaining : Nat,
      (l.serve words c).2.header remainingHeader = some (toStr remaining)
        ∧ ∀ asked, asked
            = (more.filter fun d => d.key l.makeKey = .ok key).length →
          ((verdicts l.serve (l.serve words c).1 more).filter
              (fun v => v.1.key l.makeKey = .ok key)).map (·.2.isAdmitted)
            = List.replicate (min remaining asked) true
              ++ List.replicate (asked - remaining) false := by
  obtain ⟨word, hword, hheader, hnow⟩ :=
    admitted_leaves hl hkey (halone c List.mem_cons_self) hadmitted
  refine ⟨l.left word, hheader, ?_⟩
  rintro _ rfl
  have hown : ∀ d : Call, decide (d.key l.makeKey = .ok key)
      = decide (l.keyOf d = some key) := fun d =>
    decide_eq_decide.mpr Limiter.keyOf_eq_some.symm
  have hcalls : (more.filter fun d => d.key l.makeKey = .ok key)
      = callsOf l.keyOf key more := by
    simp only [hown]
    rfl
  have hthose : ∀ d ∈ callsOf l.keyOf key more,
      d.key l.makeKey = .ok key ∧ l.Alone d := by
    intro d hd
    rw [← hcalls] at hd
    obtain ⟨hmem, hkeyed⟩ := List.mem_filter.mp hd
    exact ⟨of_decide_eq_true hkeyed, halone d (List.mem_cons_of_mem _ hmem)⟩
  have hisolated := ((limiter_byKey l).alone key more
    (rfl : (l.serve words c).1.lookup key = _)).1
  have hsecs : ∀ secs ∈ (callsOf l.keyOf key more).map (·.secs),
      l.Now secs word := by
    intro secs hsecs
    obtain ⟨d, hd, rfl⟩ := List.mem_map.mp hsecs
    obtain ⟨hdkey, -⟩ := hthose d hd
    rw [← hcalls] at hd
    exact hnow d.secs (hperiod d (List.mem_of_mem_filter hd) hdkey)
  rw [verdicts_eq_trace]
  simp only [hown]
  rw [hisolated, verdicts_outcomes hl _ hword hthose,
    (limiter_spends hl).outcomes_eq _ hsecs, List.length_map]
  rfl

/-- A bucket of three tokens, and a client. -/
private def three : Limiter := .tokenBucket { capacity := 3 }

private def client : Call := { ip := [1], spurious := [false] }

/-- The first request is told of two more, and of the next three two are
admitted. -/
theorem remaining_is_exact_three :
    ∃ remaining : Nat,
      (three.serve ∅ client).2.header remainingHeader
          = some (toStr remaining)
        ∧ ((verdicts three.serve (three.serve ∅ client).1
              (List.replicate 3 client)).filter
                (fun v => v.1.key three.makeKey = .ok [1])).map
                  (·.2.isAdmitted)
          = List.replicate (min remaining 3) true
            ++ List.replicate (3 - remaining) false := by
  have halone : ∀ d ∈ client :: List.replicate 3 client, three.Alone d := by
    intro d hd
    rw [show d = client by
      simpa [List.mem_cons, List.mem_replicate] using hd]
    exact List.mem_singleton.mpr rfl
  obtain ⟨remaining, hheader, hexact⟩ := remaining_is_exact
    (l := three) ⟨by decide, by decide, by decide, by decide⟩ ∅ rfl halone
    (by decide) (fun d hd _ => by
      rw [(List.mem_replicate.mp hd).2]
      exact Nat.le_refl _)
  exact ⟨remaining, hheader, hexact 3 rfl⟩

end CgiWebServer
