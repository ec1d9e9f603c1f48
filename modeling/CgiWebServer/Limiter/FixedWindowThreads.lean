/-
Concurrent requests with one key, as threads over the key's word.

A request that has its `IpInfo` loads `window_and_count` once and then
runs the loop of `FixedWindowLimiter::process`, one exchange a step. Each
step is atomic and each may come after any steps of the other requests.
The word starts at zero, as `std::make_unique<IpInfo>()` leaves it.
-/
import CgiWebServer.Lib.Interleave
import CgiWebServer.Limiter.FixedWindow

namespace CgiWebServer

namespace FixedWindow

open Interleave

/-- Where a request is. `stored` is ghost: one of its exchanges has
stored a word. -/
inductive Phase
  | fresh
  | looping (old : UInt64) (stored : Bool)
  | admitted
  | rejected
  deriving DecidableEq, Repr

/-- A request: its `this_window_id` and where it is. -/
structure Thread where
  windowId : UInt32
  phase : Phase
  deriving DecidableEq, Repr

/-- An atomic step: the load, or one turn of the loop, whose exchange
may fail spuriously. -/
inductive Move
  | load
  | exchange (spurious : Bool)
  deriving DecidableEq, Repr

/-- A step of one request. The loop goes round when the exchange stores
(`while(… compare_exchange_weak(…))`, not negated). -/
def step (s : FixedWindowSetting) :
    Move → UInt64 → Thread → Option (UInt64 × Thread)
  | .load, word, ⟨w, .fresh⟩ => some (word, ⟨w, .looping word false⟩)
  | .exchange spurious, word, ⟨w, .looping old stored⟩ =>
      match attempt s w old with
      | none => some (word, ⟨w, .rejected⟩)
      | some desired =>
          let (word', x) := compareExchangeWeak word old desired spurious
          match exchangeTurn true old desired x with
          | .round old' =>
              some (word', ⟨w, .looping old' (stored || x.stored)⟩)
          | .left _ => some (word', ⟨w, .admitted⟩)
  | _, _, _ => none

/-- The requests: one arrives with the clock's seconds it reads. -/
def program (s : FixedWindowSetting) :
    Program UInt64 Thread Int Move where
  start secs := ⟨thisWindowId s secs, .fresh⟩
  step := step s

/-- Admitted, or sure to be: some exchange of the request has stored. -/
def Phase.counted : Phase → Bool
  | .admitted => true
  | .looping _ stored => stored
  | .fresh | .rejected => false

/-- Admitted with a given window id. -/
def admittedIn (w : UInt32) (t : Thread) : Bool :=
  t.windowId = w ∧ t.phase = .admitted

/-- Counted in the word with a given window id. -/
def countedIn (w : UInt32) (t : Thread) : Bool :=
  t.windowId = w ∧ t.phase.counted

/-- What a turn does, by how its exchange goes: it throws, it stores and
goes round with the same expected word, or it fails and is admitted. -/
theorem step_exchange {s : FixedWindowSetting} {spurious : Bool}
    {word word' : UInt64} {w : UInt32} {old : UInt64} {stored : Bool}
    {t' : Thread}
    (hstep : step s (.exchange spurious) word ⟨w, .looping old stored⟩
      = some (word', t')) :
    (attempt s w old = none ∧ word' = word ∧ t' = ⟨w, .rejected⟩)
      ∨ (∃ desired, attempt s w old = some desired ∧ word = old
          ∧ spurious = false ∧ word' = desired
          ∧ t' = ⟨w, .looping old true⟩)
      ∨ (∃ desired, attempt s w old = some desired
          ∧ ¬ (word = old ∧ spurious = false) ∧ word' = word
          ∧ t' = ⟨w, .admitted⟩) := by
  simp only [step] at hstep
  cases hattempt : attempt s w old with
  | none =>
      simp only [hattempt, Option.some.injEq, Prod.mk.injEq] at hstep
      exact Or.inl ⟨rfl, hstep.1.symm, hstep.2.symm⟩
  | some desired =>
      simp only [hattempt] at hstep
      by_cases hstores : word = old ∧ spurious = false
      · simp only [compareExchangeWeak, if_pos hstores, exchangeTurn,
          if_true, Bool.or_true, Option.some.injEq, Prod.mk.injEq]
          at hstep
        exact Or.inr (Or.inl ⟨desired, rfl, hstores.1, hstores.2,
          hstep.1.symm, hstep.2.symm⟩)
      · simp only [compareExchangeWeak, if_neg hstores, exchangeTurn,
          Bool.false_eq_true, if_false, Option.some.injEq, Prod.mk.injEq]
          at hstep
        exact Or.inr (Or.inr ⟨desired, rfl, hstores,
          hstep.1.symm, hstep.2.symm⟩)

end FixedWindow

end CgiWebServer
