/-
Requests that do not overlap, over all the words a limiter keeps.

The loop of such a request meets no store but its own, so the exchanges
follow from the word it found: `exchangesAlone` runs them against it. A
limiter's map is one word for each key; a request looks its key up,
creates the word if it is missing, and runs its loop on it. What a
request takes from outside (its address, its clock readings, which of
its exchanges fail spuriously) is in its `Call`.
-/
import Mathlib.Data.List.AList
import CgiWebServer.Lib.Steps
import CgiWebServer.Limiter.FixedWindow
import CgiWebServer.Limiter.TokenBucket

namespace CgiWebServer

/-- `clients` or `buckets`: the word of each key. -/
abbrev Words := AList fun _ : Bytes => UInt64

/-- A request to a limiter. `created` is the clock as `findBucket` reads
it, `secs` as `process` does; `spurious` tells of each exchange there has
been time for whether it fails spuriously. -/
structure Call where
  ip : Bytes := []
  request : Request := {}
  created : Int := 0
  secs : Int := 0
  systemSecs : Int := 0
  spurious : List Bool := []
  deriving DecidableEq

/-- How a limiter answers: it calls `next` with these headers added, or
throws, or is still in its loop, or has divided by zero. -/
inductive Verdict
  | admitted (headers : List (Bytes × Bytes))
  | noKey (e : Exn)
  | rejected (e : Exn)
  | running
  | crash
  deriving DecidableEq

/-- A header of an admitted response. -/
def Verdict.header (name : Bytes) : Verdict → Option Bytes
  | .admitted headers => headers.lookup name
  | _ => none

def Verdict.isAdmitted : Verdict → Bool
  | .admitted _ => true
  | _ => false

def remainingHeader : Bytes := bytes "X-RateLimit-Remaining"

-- ========================================================= the loop alone

/-- The exchanges of a loop nobody disturbs, and the word they leave. -/
def exchangesAlone (body : UInt64 → Option UInt64) (repeatOn : Bool) :
    List Bool → UInt64 → UInt64 → List Exchange × UInt64
  | [], word, _ => ([], word)
  | spurious :: rest, word, old =>
      match body old with
      | none => ([], word)
      | some desired =>
          let (word', x) := compareExchangeWeak word old desired spurious
          match exchangeTurn repeatOn old desired x with
          | .round old' =>
              let (xs, word'') :=
                exchangesAlone body repeatOn rest word' old'
              (x :: xs, word'')
          | .left _ => ([x], word')

/-- The loop of a request alone, begun on the word itself: how it stands
and the word it leaves. -/
def loopAlone (body : UInt64 → Option UInt64) (repeatOn : Bool)
    (spurious : List Bool) (word : UInt64) : LoopEnd × UInt64 :=
  let (xs, word') := exchangesAlone body repeatOn spurious word word
  (exchangeLoop body repeatOn xs word, word')

/-- A body that throws leaves the word as it was. -/
theorem loopAlone_of_none {body : UInt64 → Option UInt64}
    {repeatOn : Bool} {word : UInt64} (h : body word = none)
    (spurious : List Bool) :
    loopAlone body repeatOn spurious word = (.threw word, word) := by
  have hxs : exchangesAlone body repeatOn spurious word word
      = ([], word) := by
    cases spurious with
    | nil => rfl
    | cons _ _ => simp only [exchangesAlone, h]
  simp only [loopAlone, hxs, exchangeLoop, h]

/-- A loop that repeats on success stores in its first exchange, and its
second, which expects the word that was there before, fails and ends
it. -/
theorem loopAlone_onSuccess {body : UInt64 → Option UInt64}
    {word desired : UInt64} (h : body word = some desired)
    (hne : desired ≠ word) (rest : List Bool) :
    loopAlone body true (false :: false :: rest) word
      = (.left desired, desired) := by
  have hxs : exchangesAlone body true (false :: false :: rest) word word
      = ([⟨true, word⟩, ⟨false, desired⟩], desired) := by
    simp only [exchangesAlone, h, compareExchangeWeak, exchangeTurn,
      and_self, if_true, hne, false_and, if_false, Bool.false_eq_true]
  simp only [loopAlone, hxs, exchangeLoop, h, exchangeTurn, if_true,
    Bool.false_eq_true, if_false]

/-- The exchanges of a loop that repeats on failure: those that fail
spuriously, and one that stores. -/
private theorem exchangesAlone_onFailure {body : UInt64 → Option UInt64}
    {word desired : UInt64} (h : body word = some desired) (failures : Nat)
    (rest : List Bool) :
    exchangesAlone body false
        (List.replicate failures true ++ false :: rest) word word
      = (List.replicate failures ⟨false, word⟩ ++ [⟨true, word⟩],
          desired) := by
  induction failures with
  | zero =>
      simp only [List.replicate_zero, List.nil_append, exchangesAlone, h,
        compareExchangeWeak, exchangeTurn, and_self, if_true,
        Bool.true_eq_false, if_false]
  | succ failures ih =>
      simp only [List.replicate_succ, List.cons_append, exchangesAlone, h,
        compareExchangeWeak, exchangeTurn, Bool.true_eq_false, and_false,
        if_false, if_true, Bool.false_eq_true, ih]

private theorem exchangeLoop_onFailure {body : UInt64 → Option UInt64}
    {word desired : UInt64} (h : body word = some desired)
    (failures : Nat) :
    exchangeLoop body false
        (List.replicate failures ⟨false, word⟩ ++ [⟨true, word⟩]) word
      = .left desired := by
  induction failures with
  | zero =>
      simp only [List.replicate_zero, List.nil_append, exchangeLoop, h,
        exchangeTurn, Bool.true_eq_false, if_false]
  | succ failures ih =>
      simp only [List.replicate_succ, List.cons_append, exchangeLoop, h,
        exchangeTurn, if_true, Bool.false_eq_true, if_false, ih]

/-- A loop that repeats on failure goes round as often as its exchange
fails spuriously, and then stores. -/
theorem loopAlone_onFailure {body : UInt64 → Option UInt64}
    {word desired : UInt64} (h : body word = some desired) (failures : Nat)
    (rest : List Bool) :
    loopAlone body false (List.replicate failures true ++ false :: rest)
        word = (.left desired, desired) := by
  simp only [loopAlone, exchangesAlone_onFailure h,
    exchangeLoop_onFailure h]

-- ========================================================== fixed window

namespace FixedWindow

/-- `process`, up to its call of `next`: the words it leaves and its
verdict. -/
def serve (s : FixedWindowSetting) (words : Words) (c : Call) :
    Words × Verdict :=
  match s.makeKey.makeKey c.ip c.request with
  | .error e => (words, .noKey e)
  | .ok key =>
      let word := (words.lookup key).getD 0
      if s.windowSeconds = 0 then (words.insert key word, .crash)
      else
        let windowId := thisWindowId s c.secs
        let (stand, word') :=
          loopAlone (attempt s windowId) true c.spurious word
        (words.insert key word',
          match stand with
          | .threw _ => .rejected (rejection s key windowId c.secs)
          | .running => .running
          | .left desired =>
              .admitted (admittedHeaders s windowId desired))

end FixedWindow

-- ========================================================== token bucket

namespace TokenBucket

/-- `process`, up to its call of `next`: the words it leaves and its
verdict. -/
def serve (s : TokenBucketSetting) (words : Words) (c : Call) :
    Words × Verdict :=
  match s.makeKey.makeKey c.ip c.request with
  | .error e => (words, .noKey e)
  | .ok key =>
      let word :=
        (words.lookup key).getD (newBucket s (toU32 c.created))
      let secs := toU32 c.secs
      let (stand, word') := loopAlone (attempt s secs) false c.spurious word
      (words.insert key word',
        match stand with
        | .threw old => .rejected (rejection s c.ip c.request secs old)
        | .running => .running
        | .left desired =>
            .admitted (admittedHeaders s secs c.systemSecs desired))

end TokenBucket

-- ============================================================= sequences

section Sequence

variable (serve : Words → Call → Words × Verdict)

/-- The words after a sequence of requests. -/
def wordsAfter (calls : List Call) : Words :=
  calls.foldl (fun words c => (serve words c).1) ∅

/-- The requests of a sequence with their verdicts. -/
def verdicts : Words → List Call → List (Call × Verdict)
  | _, [] => []
  | words, c :: rest =>
      (c, (serve words c).2) :: verdicts (serve words c).1 rest

theorem wordsAfter_snoc (calls : List Call) (c : Call) :
    wordsAfter serve (calls ++ [c])
      = (serve (wordsAfter serve calls) c).1 := by
  rw [wordsAfter, List.foldl_append]
  rfl

theorem verdicts_snoc (calls : List Call) (c : Call) :
    verdicts serve ∅ (calls ++ [c])
      = verdicts serve ∅ calls
          ++ [(c, (serve (wordsAfter serve calls) c).2)] := by
  have hfrom : ∀ words, verdicts serve words (calls ++ [c])
      = verdicts serve words calls ++ [(c, (serve
          (calls.foldl (fun words c => (serve words c).1) words) c).2)] := by
    induction calls with
    | nil => exact fun _ => rfl
    | cons d rest ih =>
        intro words
        rw [List.cons_append, verdicts, ih, verdicts, List.foldl_cons]
        rfl
  exact hfrom ∅

/-- One more request counts if it and its verdict are of the kind. -/
theorem countP_verdicts_snoc (p : Call × Verdict → Bool)
    (calls : List Call) (c : Call) :
    (verdicts serve ∅ (calls ++ [c])).countP p
      = (verdicts serve ∅ calls).countP p
        + (p (c, (serve (wordsAfter serve calls) c).2)).toNat := by
  rw [verdicts_snoc, List.countP_append, List.countP_singleton]
  cases p (c, (serve (wordsAfter serve calls) c).2) with
  | false => rfl
  | true => rfl

end Sequence

/-- Of every request of a sequence, with those before it. -/
def Throughout (P : List Call → Call → Prop) (calls : List Call) : Prop :=
  ∀ before c after, calls = before ++ c :: after → P before c

theorem throughout_snoc {P : List Call → Call → Prop} {calls : List Call}
    {c : Call} :
    Throughout P (calls ++ [c]) ↔ Throughout P calls ∧ P calls c :=
  Steps.every_snoc

end CgiWebServer
