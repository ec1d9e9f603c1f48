/-
Concurrent calls of the logger: producers in `push` and the consumer in
`pop`, as threads over the ring.

A `push` is two steps, the `fetch_add` on `head` and the store into the
slot. A `pop` is three: it loads `tail` and `head` (`tail` is written by
the consumer alone, so the two loads go together) and may be done there,
it adds to `tail`, and it moves the entry out of the slot. Steps of
different threads come in any order.

There is one consumer: the worker, and behind its join the thread in
`stopAndFlush`. Its place in `pop` is kept beside the ring, and whatever
thread consumes goes on from there.
-/
import CgiWebServer.Lib.Interleave
import CgiWebServer.Log.Logger

namespace CgiWebServer

namespace LogRing

open Interleave

variable {ε : Type}

-- =============================================================== threads

/-- Where a `push` is: at its call, with an index, or done. -/
inductive PushPhase
  | fresh
  | holding (pos : Nat)
  | stored
  deriving DecidableEq, Repr

/-- Where the consumer is in `pop`. `before` is the tail it was called
at, `currTail` the one it goes on with. -/
inductive PopPhase
  | idle
  | loaded (before currTail : Nat)
  | advanced (before currTail : Nat)
  deriving DecidableEq, Repr

/-- A thread: it pushes one entry, or it consumes. -/
inductive Thread (ε : Type)
  | producer (e : ε) (phase : PushPhase)
  | consumer
  deriving DecidableEq, Repr

/-- What a thread arrives for. -/
inductive Caller (ε : Type)
  | push (e : ε)
  | consume
  deriving DecidableEq, Repr

/-- An atomic step: of `push` the first two, of `pop` the others. -/
inductive Move
  | fetchAdd
  | store
  | load
  | advance
  | take
  deriving DecidableEq, Repr

-- ============================================================= the state

/-- A call of `pop` that has returned: the tail it was called at and the
one it left, and its answer. Ghost: `unfilled`, whether it emptied a
slot no push had stored into under its index, and `waiting`, whether a
completed push lay behind the tail it left. -/
structure Popped (ε : Type) where
  before : Nat
  after : Nat
  entry : Option ε
  unfilled : Bool
  waiting : Bool
  deriving DecidableEq, Repr

/-- The ring, the consumer's place, and ghost state: the entries in the
order of their indices, the indices of the completed pushes, and the
calls of `pop` that have returned. -/
structure Shared (ε : Type) where
  ring : LogRing ε := {}
  consumer : PopPhase := .idle
  reserved : List ε := []
  completed : List Nat := []
  pops : List (Popped ε) := []

namespace Shared

/-- Some completed push has an index from `tail` on. -/
def waiting (s : Shared ε) (tail : Nat) : Bool :=
  s.completed.any fun i => tail ≤ i

/-- What the calls of `pop` have returned, in their order. -/
def returned (s : Shared ε) : List ε := s.pops.filterMap (·.entry)

/-- `head.fetch_add`. -/
def fetchAdd (s : Shared ε) (e : ε) : Shared ε :=
  { s with
    ring := { s.ring with head := s.ring.head + 1 }
    reserved := s.reserved ++ [e] }

/-- `log_buffer[index] = std::move(entry)`. -/
def store (s : Shared ε) (e : ε) (pos : Nat) : Shared ε :=
  { s with
    ring := { s.ring with slots := s.ring.slots.put pos (some e) }
    completed := pos :: s.completed }

/-- `pop` up to `tail.fetch_add`. -/
def load (s : Shared ε) : Shared ε :=
  let currTail := s.ring.popTail
  let ring := { s.ring with tail := currTail }
  if currTail ≥ s.ring.head then
    { s with
      ring := ring
      pops := s.pops
        ++ [⟨s.ring.tail, currTail, none, false, s.waiting currTail⟩] }
  else { s with ring := ring, consumer := .loaded s.ring.tail currTail }

/-- `tail.fetch_add`. -/
def advance (s : Shared ε) (before currTail : Nat) : Shared ε :=
  { s with
    ring := { s.ring with tail := s.ring.tail + 1 }
    consumer := .advanced before currTail }

/-- `return std::move(log_buffer[…])`. -/
def take (s : Shared ε) (before currTail : Nat) : Shared ε :=
  { s with
    ring := { s.ring with slots := s.ring.slots.put currTail none }
    consumer := .idle
    pops := s.pops
      ++ [⟨before, s.ring.tail, s.ring.slots.get currTail,
        currTail ∉ s.completed, s.waiting s.ring.tail⟩] }

end Shared

/-- A step of one thread. -/
def step : Move → Shared ε → Thread ε → Option (Shared ε × Thread ε)
  | .fetchAdd, s, .producer e .fresh =>
      some (s.fetchAdd e, .producer e (.holding s.ring.head))
  | .store, s, .producer e (.holding pos) =>
      some (s.store e pos, .producer e .stored)
  | .load, s, .consumer =>
      match s.consumer with
      | .idle => some (s.load, .consumer)
      | _ => none
  | .advance, s, .consumer =>
      match s.consumer with
      | .loaded before currTail => some (s.advance before currTail, .consumer)
      | _ => none
  | .take, s, .consumer =>
      match s.consumer with
      | .advanced before currTail => some (s.take before currTail, .consumer)
      | _ => none
  | _, _, _ => none

/-- The producers and the consumer. -/
def program : Program (Shared ε) (Thread ε) (Caller ε) Move where
  start
    | .push e => .producer e .fresh
    | .consume => .consumer
  step := step

/-- What a step of the producers and the consumer does, by its move. -/
inductive RingStep (s : Shared ε) :
    Move → Thread ε → Shared ε → Thread ε → Prop
  | fetchAdd {e : ε} :
      RingStep s .fetchAdd (.producer e .fresh) (s.fetchAdd e)
        (.producer e (.holding s.ring.head))
  | store {e : ε} {pos : Nat} :
      RingStep s .store (.producer e (.holding pos)) (s.store e pos)
        (.producer e .stored)
  | load (hidle : s.consumer = .idle) :
      RingStep s .load .consumer s.load .consumer
  | advance {before currTail : Nat}
      (hloaded : s.consumer = .loaded before currTail) :
      RingStep s .advance .consumer (s.advance before currTail) .consumer
  | take {before currTail : Nat}
      (hadvanced : s.consumer = .advanced before currTail) :
      RingStep s .take .consumer (s.take before currTail) .consumer

/-- They do no other step. -/
theorem ringStep_of {a : Move} {s s' : Shared ε} {t t' : Thread ε}
    (hstep : step a s t = some (s', t')) : RingStep s a t s' t' := by
  unfold step at hstep
  split at hstep
  case h_1 e =>
    cases hstep
    exact .fetchAdd
  case h_2 e pos =>
    cases hstep
    exact .store
  case h_3 =>
    split at hstep
    case h_1 hidle =>
      cases hstep
      exact .load hidle
    case h_2 => cases hstep
  case h_4 =>
    split at hstep
    case h_1 before currTail hloaded =>
      cases hstep
      exact .advance hloaded
    case h_2 => cases hstep
  case h_5 =>
    split at hstep
    case h_1 before currTail hadvanced =>
      cases hstep
      exact .take hadvanced
    case h_2 => cases hstep
  case h_6 => cases hstep

-- ========================================================= without others

/-- A `push` no other thread interrupts. -/
theorem store_fetchAdd (s : Shared ε) (e : ε) :
    ((s.fetchAdd e).store e s.ring.head).ring = s.ring.push e := rfl

/-- A `pop` no other thread interrupts, and what it answers. -/
theorem load_alone (s : Shared ε) (hnull : s.ring.popTail ≥ s.ring.head) :
    s.load.ring = s.ring.pop.2
      ∧ s.load.pops.getLast?.map (·.entry) = some s.ring.pop.1 := by
  rw [Shared.load, pop, if_pos hnull, if_pos hnull]
  exact ⟨rfl, by rw [List.getLast?_concat]; rfl⟩

theorem take_advance_load (s : Shared ε)
    (hentry : ¬ s.ring.popTail ≥ s.ring.head) {before currTail : Nat}
    (hloaded : s.load.consumer = .loaded before currTail)
    {s' : Shared ε}
    (hs' : s' = (s.load.advance before currTail).take before currTail) :
    s'.ring = s.ring.pop.2
      ∧ s'.pops.getLast?.map (·.entry) = some s.ring.pop.1 := by
  have hload : s.load = { s with
      ring := { s.ring with tail := s.ring.popTail }
      consumer := .loaded s.ring.tail s.ring.popTail } := if_neg hentry
  rw [hload] at hs' hloaded
  obtain ⟨rfl, rfl⟩ := PopPhase.loaded.inj hloaded
  subst hs'
  rw [pop, if_neg hentry]
  refine ⟨rfl, ?_⟩
  rw [Shared.take, List.getLast?_concat]
  rfl

end LogRing

end CgiWebServer
