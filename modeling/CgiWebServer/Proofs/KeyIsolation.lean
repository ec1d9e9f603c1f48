/-
One key does not feel another.

Both limiters keep one word for each key in one map, and every request
goes through that map. All the same a request reads and writes the word
of its own key only (`limiter_byKey`), so for each key the limiter is one
of its own: whatever requests of other keys come between, and whatever
order they come in, the key's requests get the verdicts, and so the
headers and the waits, they would get alone.
-/
import CgiWebServer.Lib.Keyed
import CgiWebServer.Proofs.AdmissionBound

namespace CgiWebServer

open Keyed

/-- The key a request has at a limiter, if it has one. -/
def Limiter.keyOf (l : Limiter) (c : Call) : Option Bytes :=
  (c.key l.makeKey).toOption

theorem Limiter.keyOf_eq_some {l : Limiter} {c : Call} {key : Bytes} :
    l.keyOf c = some key ↔ c.key l.makeKey = .ok key := by
  unfold Limiter.keyOf
  cases c.key l.makeKey with
  | error e => simp [Except.toOption]
  | ok own => simp [Except.toOption]

/-- A limiter's sequences are runs of a machine. -/
theorem verdicts_eq_trace (serve : Words → Call → Words × Verdict)
    (calls : List Call) : ∀ words,
    verdicts serve words calls = trace serve words calls := by
  induction calls with
  | nil => exact fun _ => rfl
  | cons c rest ih =>
      intro words
      rw [verdicts, trace, ih]

-- ============================================================ fixed window

namespace FixedWindow

variable (s : FixedWindowSetting)

/-- The answer and the word of a request come from its own word. -/
theorem serve_own {words words' : Words} {c : Call} {key : Bytes}
    (hkey : c.key s.makeKey = .ok key)
    (hsame : words.lookup key = words'.lookup key) :
    (serve s words c).2 = (serve s words' c).2
      ∧ (serve s words c).1.lookup key
        = (serve s words' c).1.lookup key := by
  rw [Call.key] at hkey
  simp only [serve, hkey, hsame]
  split
  · exact ⟨rfl, by rw [AList.lookup_insert, AList.lookup_insert]⟩
  · exact ⟨rfl, by rw [AList.lookup_insert, AList.lookup_insert]⟩

end FixedWindow

-- ============================================================ token bucket

namespace TokenBucket

variable (s : TokenBucketSetting)

theorem serve_own {words words' : Words} {c : Call} {key : Bytes}
    (hkey : c.key s.makeKey = .ok key)
    (hsame : words.lookup key = words'.lookup key) :
    (serve s words c).2 = (serve s words' c).2
      ∧ (serve s words c).1.lookup key
        = (serve s words' c).1.lookup key := by
  rw [Call.key] at hkey
  simp only [serve, hkey, hsame]
  exact ⟨trivial, by rw [AList.lookup_insert, AList.lookup_insert]⟩

theorem serve_other (words : Words) {c : Call} {key : Bytes}
    (hkey : c.key s.makeKey ≠ .ok key) :
    (serve s words c).1.lookup key = words.lookup key := by
  rcases serve_words words c with ⟨e, -, hwords⟩
    | ⟨own, word, hown, hwords, -⟩
  · rw [hwords]
  · rw [hwords, AList.lookup_insert_ne]
    rintro rfl
    exact hkey hown

end TokenBucket

-- =============================================================== isolation

/-- What a limiter keeps, it keeps by key. -/
theorem limiter_byKey (l : Limiter) :
    ByKey l.serve l.keyOf fun words key => words.lookup key := by
  cases l with
  | fixedWindow s =>
      refine ⟨fun hkey hsame => ?_, fun words c key hkey => ?_⟩
      · exact FixedWindow.serve_own s (Limiter.keyOf_eq_some.mp hkey) hsame
      · exact FixedWindow.serve_of_other fun hown =>
          hkey (Limiter.keyOf_eq_some.mpr hown)
  | tokenBucket s =>
      refine ⟨fun hkey hsame => ?_, fun words c key hkey => ?_⟩
      · exact TokenBucket.serve_own s (Limiter.keyOf_eq_some.mp hkey) hsame
      · exact TokenBucket.serve_other s words fun hown =>
          hkey (Limiter.keyOf_eq_some.mpr hown)

/-- Of any two sequences of requests in which a key's requests are the
same and in the same order, a limiter gives these the same verdicts and
leaves the same word for the key. -/
theorem keys_isolated (l : Limiter) (key : Bytes) (calls calls' : List Call)
    (hsame : calls.filter (fun c => c.key l.makeKey = .ok key)
      = calls'.filter fun c => c.key l.makeKey = .ok key) :
    (verdicts l.serve ∅ calls).filter (fun v => v.1.key l.makeKey = .ok key)
        = (verdicts l.serve ∅ calls').filter
          (fun v => v.1.key l.makeKey = .ok key)
      ∧ (wordsAfter l.serve calls).lookup key
        = (wordsAfter l.serve calls').lookup key := by
  have hown : ∀ c : Call, decide (c.key l.makeKey = .ok key)
      = decide (l.keyOf c = some key) := fun c =>
    decide_eq_decide.mpr Limiter.keyOf_eq_some.symm
  simp only [hown] at hsame ⊢
  have hempty : (∅ : Words).lookup key = (∅ : Words).lookup key := rfl
  obtain ⟨htrace, hword⟩ := (limiter_byKey l).alone key calls hempty
  obtain ⟨htrace', hword'⟩ := (limiter_byKey l).alone key calls' hempty
  have hcalls : callsOf l.keyOf key calls = callsOf l.keyOf key calls' :=
    hsame
  rw [verdicts_eq_trace, verdicts_eq_trace, htrace, htrace', hcalls]
  refine ⟨rfl, ?_⟩
  show (final l.serve ∅ calls).lookup key
    = (final l.serve ∅ calls').lookup key
  rw [hword, hword', hcalls]

/-- A request from an address. -/
private def askFrom (ip : Bytes) : Call := { ip := ip, spurious := [false] }

/-- A request between two of a key, or none: the second is told the
same. -/
theorem keys_isolated_between :
    (wordsAfter (Limiter.tokenBucket {}).serve
        [askFrom [1], askFrom [2], askFrom [1]]).lookup [1]
      = (wordsAfter (Limiter.tokenBucket {}).serve
          [askFrom [1], askFrom [1]]).lookup [1] := by
  refine (keys_isolated (.tokenBucket {}) [1] _ _ ?_).2
  have hkey : ∀ ip, (askFrom ip).key (Limiter.tokenBucket {}).makeKey
      = .ok ip := fun _ => rfl
  simp [hkey]

end CgiWebServer
