/-
Logging until the logger stops: producers in `push`, the worker in `run`,
and callers of `stopAndFlush`, as threads over one logger.

The steps on the ring are those of its own program (`LogRing.program`):
a thread here is, seen from the ring, a producer or the consumer
(`ringThread`). What a thread does between them it does to the batch and
the sinks, which no lock guards. `start` sets `running` and makes a
worker; `stopAndFlush` clears `running`, waits for the worker's `run` to
return, writes the batch, and drains the ring. The second call, after
`FATAL` the destructor's, finds nothing to join.

Nothing in the source keeps a second `start` away, or two calls of
`stopAndFlush` apart. That their callers do is a condition on schedules
(`Serial`), and not part of any step. Under it only one thread is ever
where it pops (`one_consumer`), so that one field, `consumer`, holds the
place in `pop` and no thread waits there for another.
-/
import CgiWebServer.Log.LoggerThreads

namespace CgiWebServer

namespace Logger

variable {ε : Type} [Entry ε] (times : Nat → Bytes)

/-- The end of `processBatch`: the popped entry goes into the batch,
which is flushed once it is full. -/
def batchEntry (e : ε) (l : Logger ε) : Option (Logger ε) :=
  if l.entries < entryBatchSize then
    let l := { l with
      batch := Function.update l.batch l.entries (some e)
      entries := l.entries + 1 }
    if l.entries ≥ entryBatchSize then flush times l else some l
  else none

/-- The body of the `while` of `stopAndFlush`. -/
def writeEntry (e : ε) (l : Logger ε) : Logger ε :=
  { l with built := l.built + 1 }.write (Entry.build (times l.built) e).1

/-- The worker's turn, by its parts. -/
theorem processBatch_eq (timeout : Bool) (l : Logger ε) :
    processBatch times timeout l
      = (flushTimeout times timeout l).bind fun l =>
          match l.ring.pop with
          | (none, ring) => some { l with ring := ring }
          | (some e, ring) => batchEntry times e { l with ring := ring } :=
  rfl

/-- The drain, by its parts. -/
theorem drain_succ (fuel : Nat) (l : Logger ε) :
    drain times (fuel + 1) l
      = match l.ring.pop with
        | (none, ring) => some { l with ring := ring }
        | (some e, ring) =>
            drain times fuel (writeEntry times e { l with ring := ring }) :=
  rfl

end Logger

namespace LogStop

open Interleave
open LogRing (PushPhase PopPhase Popped)

variable {ε : Type}

-- =============================================================== threads

/-- Where the worker is in `run`: created, at the loop's condition, in
`processBatch` before and in its `pop`, past the loop, or returned. -/
inductive WorkerPhase
  | created
  | checking
  | turning
  | popping
  | finishing
  | returned
  deriving DecidableEq, Repr

/-- Where a caller of `stopAndFlush` is. `due` is ghost: how many entries
had an index when it cleared `running`. -/
inductive StopPhase
  | called
  | joining (due : Nat)
  | flushing (due : Nat)
  | draining (due : Nat)
  | returned (due : Nat)
  deriving DecidableEq, Repr

/-- A thread: it pushes one entry, works, or stops the logger. -/
inductive Thread (ε : Type)
  | producer (e : ε) (phase : PushPhase)
  | worker (phase : WorkerPhase)
  | stopper (phase : StopPhase)
  deriving DecidableEq, Repr

/-- What a thread arrives for. -/
inductive Caller (ε : Type)
  | push (e : ε)
  | work
  | stop
  deriving DecidableEq, Repr

/-- An atomic step: of a push the first two, of the worker and a stopper
in `pop` the next three, of the worker four, of a stopper the rest. -/
inductive Move
  | fetchAdd
  | store
  | load
  | advance
  | take
  | begin
  | check
  | turn (timeout : Bool)
  | finish
  | stop
  | join
  | flushRest
  deriving DecidableEq, Repr

-- ============================================================= the state

/-- The logger, the flags around it, and beside it what `LogRing.Shared`
has: the consumer's place in `pop`, and ghost state. `exited` says that
the worker's `run` has returned, which is what a join waits for. -/
structure Shared (ε : Type) where
  logger : Logger ε
  running : Bool := true
  exited : Bool := false
  consumer : PopPhase := .idle
  reserved : List ε := []
  completed : List Nat := []
  pops : List (Popped ε) := []

namespace Shared

/-- The ring of the logger, as its own program has it. -/
def ring (m : Shared ε) : LogRing.Shared ε :=
  { ring := m.logger.ring, consumer := m.consumer, reserved := m.reserved,
    completed := m.completed, pops := m.pops }

/-- The ring changed. -/
def withRing (m : Shared ε) (r : LogRing.Shared ε) : Shared ε :=
  { m with
    logger := { m.logger with ring := r.ring }
    consumer := r.consumer
    reserved := r.reserved
    completed := r.completed
    pops := r.pops }

/-- The rest of the logger changed. -/
def withLogger (m : Shared ε) (l : Logger ε) : Shared ε :=
  { m with logger := l }

/-- What the consumer's slot holds. -/
def slot (m : Shared ε) (currTail : Nat) : Option ε :=
  m.logger.ring.slots.get currTail

end Shared

variable [Entry ε] (times : Nat → Bytes)

/-- A step of a push: as the ring's. -/
def stepPush : Move → Shared ε → ε → PushPhase →
    Option (Shared ε × PushPhase)
  | .fetchAdd, m, e, .fresh =>
      some (m.withRing (m.ring.fetchAdd e), .holding m.logger.ring.head)
  | .store, m, e, .holding pos =>
      some (m.withRing (m.ring.store e pos), .stored)
  | _, _, _, _ => none

/-- A step of the worker. A null from `pop` ends its turn. -/
def stepWorker : Move → Shared ε → WorkerPhase →
    Option (Shared ε × WorkerPhase)
  | .begin, m, .created => some (m, .checking)
  | .check, m, .checking =>
      some (m, if m.running then .turning else .finishing)
  | .turn timeout, m, .turning =>
      (m.logger.flushTimeout times timeout).map fun l =>
        (m.withLogger l, .popping)
  | .load, m, .popping =>
      match m.consumer with
      | .idle =>
          some (m.withRing m.ring.load,
            if m.logger.ring.popTail ≥ m.logger.ring.head then .checking
            else .popping)
      | _ => none
  | .advance, m, .popping =>
      match m.consumer with
      | .loaded before currTail =>
          some (m.withRing (m.ring.advance before currTail), .popping)
      | _ => none
  | .take, m, .popping =>
      match m.consumer with
      | .advanced before currTail =>
          let m' := m.withRing (m.ring.take before currTail)
          match m.slot currTail with
          | none => some (m', .checking)
          | some e =>
              (m'.logger.batchEntry times e).map fun l =>
                (m'.withLogger l, .checking)
      | _ => none
  | .finish, m, .finishing =>
      (m.logger.flushPending times).map fun l =>
        ({ m.withLogger l with exited := true }, .returned)
  | _, _, _ => none

/-- A step of a caller of `stopAndFlush`. A null from `pop` ends the
drain. -/
def stepStopper : Move → Shared ε → StopPhase →
    Option (Shared ε × StopPhase)
  | .stop, m, .called =>
      some ({ m with running := false }, .joining m.logger.ring.head)
  | .join, m, .joining due =>
      if m.logger.joinable then
        if m.exited then
          some (m.withLogger { m.logger with joinable := false },
            .flushing due)
        else none
      else some (m, .flushing due)
  | .flushRest, m, .flushing due =>
      (m.logger.flushPending times).map fun l =>
        (m.withLogger l, .draining due)
  | .load, m, .draining due =>
      match m.consumer with
      | .idle =>
          some (m.withRing m.ring.load,
            if m.logger.ring.popTail ≥ m.logger.ring.head then .returned due
            else .draining due)
      | _ => none
  | .advance, m, .draining due =>
      match m.consumer with
      | .loaded before currTail =>
          some (m.withRing (m.ring.advance before currTail), .draining due)
      | _ => none
  | .take, m, .draining due =>
      match m.consumer with
      | .advanced before currTail =>
          let m' := m.withRing (m.ring.take before currTail)
          match m.slot currTail with
          | none => some (m', .returned due)
          | some e =>
              some (m'.withLogger (m'.logger.writeEntry times e),
                .draining due)
      | _ => none
  | _, _, _ => none

/-- A step of one thread. -/
def step (a : Move) (m : Shared ε) :
    Thread ε → Option (Shared ε × Thread ε)
  | .producer e phase =>
      (stepPush a m e phase).map fun (m', phase') =>
        (m', .producer e phase')
  | .worker phase =>
      (stepWorker times a m phase).map fun (m', phase') =>
        (m', .worker phase')
  | .stopper phase =>
      (stepStopper times a m phase).map fun (m', phase') =>
        (m', .stopper phase')

variable {times}

-- ========================================================= the steps there are

/-- A step of a push. -/
inductive PushStep (m : Shared ε) (e : ε) :
    Move → PushPhase → Shared ε → PushPhase → Prop
  | fetchAdd :
      PushStep m e .fetchAdd .fresh (m.withRing (m.ring.fetchAdd e))
        (.holding m.logger.ring.head)
  | store {pos : Nat} :
      PushStep m e .store (.holding pos) (m.withRing (m.ring.store e pos))
        .stored

omit [Entry ε] in
theorem pushStep_of {a : Move} {m m' : Shared ε} {e : ε}
    {phase phase' : PushPhase}
    (hstep : stepPush a m e phase = some (m', phase')) :
    PushStep m e a phase m' phase' := by
  unfold stepPush at hstep
  split at hstep
  case h_1 =>
    cases hstep
    exact .fetchAdd
  case h_2 pos =>
    cases hstep
    exact .store
  case h_3 => cases hstep

variable (times) in
/-- A step of the worker: it begins, it looks at `running`, it writes what
waits too long, it is in `pop`, which may return a null, it puts an entry
into the batch, or it writes the rest and returns. -/
inductive WorkerStep (m : Shared ε) :
    Move → WorkerPhase → Shared ε → WorkerPhase → Prop
  | begin : WorkerStep m .begin .created m .checking
  | goOn (h : m.running = true) : WorkerStep m .check .checking m .turning
  | leave (h : m.running = false) :
      WorkerStep m .check .checking m .finishing
  | turn {timeout : Bool} {l : Logger ε}
      (hflush : m.logger.flushTimeout times timeout = some l) :
      WorkerStep m (.turn timeout) .turning (m.withLogger l) .popping
  | null (hidle : m.consumer = .idle)
      (hnull : m.logger.ring.popTail ≥ m.logger.ring.head) :
      WorkerStep m .load .popping (m.withRing m.ring.load) .checking
  | load (hidle : m.consumer = .idle) :
      WorkerStep m .load .popping (m.withRing m.ring.load) .popping
  | advance {before currTail : Nat}
      (hloaded : m.consumer = .loaded before currTail) :
      WorkerStep m .advance .popping
        (m.withRing (m.ring.advance before currTail)) .popping
  | empty {before currTail : Nat}
      (hadvanced : m.consumer = .advanced before currTail)
      (hslot : m.slot currTail = none) :
      WorkerStep m .take .popping (m.withRing (m.ring.take before currTail))
        .checking
  | take {before currTail : Nat} {e : ε} {l : Logger ε}
      (hadvanced : m.consumer = .advanced before currTail)
      (hslot : m.slot currTail = some e)
      (hbatch : (m.withRing (m.ring.take before currTail)).logger.batchEntry
        times e = some l) :
      WorkerStep m .take .popping
        ((m.withRing (m.ring.take before currTail)).withLogger l) .checking
  | finish {l : Logger ε} (hflush : m.logger.flushPending times = some l) :
      WorkerStep m .finish .finishing { m.withLogger l with exited := true }
        .returned

theorem workerStep_of {a : Move} {m m' : Shared ε}
    {phase phase' : WorkerPhase}
    (hstep : stepWorker times a m phase = some (m', phase')) :
    WorkerStep times m a phase m' phase' := by
  unfold stepWorker at hstep
  split at hstep
  case h_1 =>
    cases hstep
    exact .begin
  case h_2 =>
    cases hstep
    cases hrunning : m.running with
    | true => exact .goOn hrunning
    | false => exact .leave hrunning
  case h_3 timeout =>
    obtain ⟨l, hflush, hnext⟩ := Option.map_eq_some_iff.mp hstep
    cases hnext
    exact .turn hflush
  case h_4 =>
    split at hstep
    case h_1 hidle =>
      cases hstep
      -- A `pop` that finds nothing returns at its load.
      by_cases hnull : m.logger.ring.popTail ≥ m.logger.ring.head
      · rw [if_pos hnull]
        exact .null hidle hnull
      · rw [if_neg hnull]
        exact .load hidle
    case h_2 => cases hstep
  case h_5 =>
    split at hstep
    case h_1 before currTail hloaded =>
      cases hstep
      exact .advance hloaded
    case h_2 => cases hstep
  case h_6 =>
    split at hstep
    case h_1 before currTail hadvanced =>
      split at hstep
      case h_1 hslot =>
        cases hstep
        exact .empty hadvanced hslot
      case h_2 e hslot =>
        obtain ⟨l, hbatch, hnext⟩ := Option.map_eq_some_iff.mp hstep
        cases hnext
        exact .take hadvanced hslot hbatch
    case h_2 => cases hstep
  case h_7 =>
    obtain ⟨l, hflush, hnext⟩ := Option.map_eq_some_iff.mp hstep
    cases hnext
    exact .finish hflush
  case h_8 => cases hstep

variable (times) in
/-- A step of a call of `stopAndFlush`: it clears `running`, it joins the
worker or finds it joined, it writes the batch, it is in `pop`, it writes
an entry, or a null ends it. -/
inductive StopperStep (m : Shared ε) :
    Move → StopPhase → Shared ε → StopPhase → Prop
  | stop :
      StopperStep m .stop .called { m with running := false }
        (.joining m.logger.ring.head)
  | join {due : Nat} (hjoinable : m.logger.joinable = true)
      (hexited : m.exited = true) :
      StopperStep m .join (.joining due)
        (m.withLogger { m.logger with joinable := false }) (.flushing due)
  | joined {due : Nat} (hjoined : m.logger.joinable = false) :
      StopperStep m .join (.joining due) m (.flushing due)
  | flush {due : Nat} {l : Logger ε}
      (hflush : m.logger.flushPending times = some l) :
      StopperStep m .flushRest (.flushing due) (m.withLogger l)
        (.draining due)
  | null {due : Nat} (hidle : m.consumer = .idle)
      (hnull : m.logger.ring.popTail ≥ m.logger.ring.head) :
      StopperStep m .load (.draining due) (m.withRing m.ring.load)
        (.returned due)
  | load {due : Nat} (hidle : m.consumer = .idle) :
      StopperStep m .load (.draining due) (m.withRing m.ring.load)
        (.draining due)
  | advance {due before currTail : Nat}
      (hloaded : m.consumer = .loaded before currTail) :
      StopperStep m .advance (.draining due)
        (m.withRing (m.ring.advance before currTail)) (.draining due)
  | empty {due before currTail : Nat}
      (hadvanced : m.consumer = .advanced before currTail)
      (hslot : m.slot currTail = none) :
      StopperStep m .take (.draining due)
        (m.withRing (m.ring.take before currTail)) (.returned due)
  | write {due before currTail : Nat} {e : ε}
      (hadvanced : m.consumer = .advanced before currTail)
      (hslot : m.slot currTail = some e) :
      StopperStep m .take (.draining due)
        ((m.withRing (m.ring.take before currTail)).withLogger
          ((m.withRing (m.ring.take before currTail)).logger.writeEntry
            times e)) (.draining due)

theorem stopperStep_of {a : Move} {m m' : Shared ε}
    {phase phase' : StopPhase}
    (hstep : stepStopper times a m phase = some (m', phase')) :
    StopperStep times m a phase m' phase' := by
  unfold stepStopper at hstep
  split at hstep
  case h_1 =>
    cases hstep
    exact .stop
  case h_2 due =>
    split at hstep
    case isTrue hjoinable =>
      split at hstep
      case isTrue hexited =>
        cases hstep
        exact .join hjoinable hexited
      case isFalse => cases hstep
    -- A worker that has been joined is not joined again.
    case isFalse hjoined =>
      cases hstep
      exact .joined (Bool.eq_false_iff.mpr hjoined)
  case h_3 due =>
    obtain ⟨l, hflush, hnext⟩ := Option.map_eq_some_iff.mp hstep
    cases hnext
    exact .flush hflush
  case h_4 due =>
    split at hstep
    case h_1 hidle =>
      cases hstep
      by_cases hnull : m.logger.ring.popTail ≥ m.logger.ring.head
      · rw [if_pos hnull]
        exact .null hidle hnull
      · rw [if_neg hnull]
        exact .load hidle
    case h_2 => cases hstep
  case h_5 due =>
    split at hstep
    case h_1 before currTail hloaded =>
      cases hstep
      exact .advance hloaded
    case h_2 => cases hstep
  case h_6 due =>
    split at hstep
    case h_1 before currTail hadvanced =>
      simp only at hstep
      split at hstep
      case h_1 hslot =>
        cases hstep
        exact .empty hadvanced hslot
      case h_2 e hslot =>
        cases hstep
        exact .write hadvanced hslot
    case h_2 => cases hstep
  case h_7 => cases hstep

-- ============================================================ the program

variable (times) in
/-- The threads of the logger. -/
def program : Program (Shared ε) (Thread ε) (Caller ε) Move where
  start
    | .push e => .producer e .fresh
    | .work => .worker .created
    | .stop => .stopper .called
  step := step times

/-- The logger as `start` leaves it, before the worker's first step. -/
def started (sinks : List Bytes) : Shared ε :=
  { logger := { sinks := sinks } }

-- =========================================================== the schedules

/-- A thread that `start` makes. -/
def isWorker : Thread ε → Bool
  | .worker _ => true
  | _ => false

/-- Within `stopAndFlush`. -/
def isStopping : Thread ε → Bool
  | .stopper .called | .stopper (.returned _) => false
  | .stopper _ => true
  | _ => false

omit [Entry ε] in
/-- A step that is no second `start`, and begins no `stopAndFlush` within
another. -/
def serial (sys : Sys (Shared ε) (Thread ε)) :
    Action (Caller ε) Move → Bool
  | .arrive .work => sys.threads.countP isWorker = 0
  | .move _ .stop => sys.threads.countP isStopping = 0
  | _ => true

omit [Entry ε] in
/-- `start` is called once, and calls of `stopAndFlush` do not overlap. -/
def Serial (sys : Sys (Shared ε) (Thread ε))
    (x : Action (Caller ε) Move) : Prop := serial sys x = true

omit [Entry ε] in
/-- A step at which the ring is not overrun and no slot is emptied before
it is filled. -/
def inTime (sys : Sys (Shared ε) (Thread ε)) :
    Action (Caller ε) Move → Bool
  | .move _ .fetchAdd =>
      sys.shared.logger.ring.head + 1 - sys.shared.logger.ring.tail
        < logBufferSize
  | .move _ .take =>
      match sys.shared.consumer with
      | .advanced _ currTail => currTail ∈ sys.shared.completed
      | _ => true
  | _ => true

omit [Entry ε] in
/-- The same, as a condition on steps, beside `Serial`. -/
def InTime (sys : Sys (Shared ε) (Thread ε))
    (x : Action (Caller ε) Move) : Prop :=
  (serial sys x && inTime sys x) = true

end LogStop

end CgiWebServer
