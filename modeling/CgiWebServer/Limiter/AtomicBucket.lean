/-
The token bucket as it is meant: one word, served in one go.

Over the buckets, the map's entry, the lock and the exchanges stands a
simpler limiter. It keeps for a key either nothing or one word. A
request creates the word if there is none, reads the clock, and is
served in a single step, which takes the word from before to after and
settles the request. That creation is a step of its own stays visible:
`findBucket` stamps the bucket before the request that is served first
has read its clock.
-/
import CgiWebServer.Lib.Refinement
import CgiWebServer.Limiter.TokenBucketThreads
import CgiWebServer.Limiter.Alone

namespace CgiWebServer

namespace TokenBucket

open Interleave

/-- Where a request of the atomic limiter is. -/
inductive Turn
  | waiting
  | timed (secs : UInt32)
  | done (admitted : Bool)
  deriving DecidableEq, Repr

/-- What a request of the atomic limiter does in one step. -/
inductive AtomicMove
  | create (now : UInt32)
  | clock (secs : UInt32)
  | serve
  deriving DecidableEq, Repr

/-- A step of one request: being served is one of them. -/
def atomicStep (s : TokenBucketSetting) :
    AtomicMove → Option UInt64 → Turn → Option (Option UInt64 × Turn)
  | .create now, none, .waiting => some (some (newBucket s now), .waiting)
  | .clock secs, word, .waiting => some (word, .timed secs)
  | .serve, some word, .timed secs =>
      match attempt s secs word with
      | none => some (some word, .done false)
      | some desired => some (some desired, .done true)
  | _, _, _ => none

/-- The atomic limiter. -/
def atomic (s : TokenBucketSetting) :
    Program (Option UInt64) Turn Unit AtomicMove where
  start _ := .waiting
  step := atomicStep s

/-- The request an action serves, with the clock it had read. -/
def serving (a : Sys (Option UInt64) Turn) :
    Action Unit AtomicMove → List (Nat × UInt32)
  | .move i .serve =>
      match a.threads[i]? with
      | some (.timed secs) => [(i, secs)]
      | _ => []
  | _ => []

/-- The requests a schedule serves, in the order of their steps. -/
def servings (s : TokenBucketSetting) :
    List (Action Unit AtomicMove) → Sys (Option UInt64) Turn →
      List (Nat × UInt32)
  | [], _ => []
  | x :: rest, a =>
      match (atomic s).apply x a with
      | none => []
      | some next => serving a x ++ servings s rest next

theorem servings_append {s : TokenBucketSetting}
    {xs : List (Action Unit AtomicMove)} {a mid : Sys (Option UInt64) Turn}
    (hrun : (atomic s).run xs a = some mid)
    (ys : List (Action Unit AtomicMove)) :
    servings s (xs ++ ys) a = servings s xs a ++ servings s ys mid := by
  induction xs generalizing a with
  | nil =>
      obtain rfl := Option.some.inj hrun
      rfl
  | cons x xs ih =>
      obtain ⟨next, happly, hrest⟩ := Program.run_cons hrun
      simp only [List.cons_append, servings, happly, ih hrest,
        List.append_assoc]

/-- What a step does: it creates the word, reads the clock, or serves. -/
theorem atomicStep_cases {s : TokenBucketSetting} {a : AtomicMove}
    {word word' : Option UInt64} {t t' : Turn}
    (hstep : atomicStep s a word t = some (word', t')) :
    (∃ now, a = .create now ∧ word = none ∧ t = .waiting
        ∧ word' = some (newBucket s now) ∧ t' = .waiting)
      ∨ (∃ secs, a = .clock secs ∧ t = .waiting ∧ word' = word
        ∧ t' = .timed secs)
      ∨ (∃ secs old, a = .serve ∧ word = some old ∧ t = .timed secs
        ∧ word' = some ((attempt s secs old).getD old)
        ∧ t' = .done (attempt s secs old).isSome) := by
  -- A move that does not suit the turn is no step.
  cases a with
  | create now =>
      cases word with
      | some old => cases t <;> cases hstep
      | none =>
          cases t with
          | waiting =>
              cases hstep
              exact Or.inl ⟨now, rfl, rfl, rfl, rfl, rfl⟩
          | timed secs => cases hstep
          | done admitted => cases hstep
  | clock secs =>
      cases t with
      | waiting =>
          simp only [atomicStep, Option.some.injEq, Prod.mk.injEq] at hstep
          exact Or.inr (Or.inl
            ⟨secs, rfl, rfl, hstep.1.symm, hstep.2.symm⟩)
      | timed secs' => cases word <;> cases hstep
      | done admitted => cases word <;> cases hstep
  | serve =>
      cases word with
      | none => cases t <;> cases hstep
      | some old =>
          cases t with
          | waiting => cases hstep
          | done admitted => cases hstep
          | timed secs =>
              refine Or.inr (Or.inr ⟨secs, old, rfl, rfl, rfl, ?_⟩)
              simp only [atomicStep] at hstep
              cases hattempt : attempt s secs old with
              | none =>
                  rw [hattempt] at hstep
                  cases hstep
                  exact ⟨rfl, rfl⟩
              | some desired =>
                  rw [hattempt] at hstep
                  cases hstep
                  exact ⟨rfl, rfl⟩

end TokenBucket

end CgiWebServer
