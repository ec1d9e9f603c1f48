/-
The logger (logger.cpp): the ring of pushed entries, the worker's batch,
and the sinks.

`Entry` is an abstract class in the source; the logger only calls its
`build`, which reads the clock and may change the entry. Every call of
`get_time` has its own answer: `times` tells them in the order of the
calls, and `built` counts them.

The array stores and the pointers read through are partial: a store past
the batch's end and a null pointer are `none`.
-/
import CgiWebServer.Basic
import CgiWebServer.Lib.Ring

namespace CgiWebServer

-- =============================================================== entries

/-- `logger::level`. -/
inductive LogLevel
  | trace
  | debug
  | info
  | warn
  | error
  | fatal
  | status
  deriving DecidableEq, Repr

/-- `level_to_str`. -/
def levelToStr : LogLevel → Bytes
  | .trace => bytes "TRACE"
  | .debug => bytes "DEBUG"
  | .info => bytes "INFO"
  | .warn => bytes "WARN"
  | .error => bytes "ERROR"
  | .fatal => bytes "FATAL"
  | .status => bytes "STATUS"

/-- `logger::Entry`: its `build`, at what `get_time` says, as the text
and the entry it leaves. -/
class Entry (ε : Type) where
  build : Bytes → ε → Bytes × ε

/-- `logger::InlineEntry`. -/
structure InlineEntry where
  level : LogLevel
  context : Bytes
  message : Bytes
  file : Bytes := []
  line : Int := 0
  function : Bytes := []
  deriving DecidableEq

/-- `InlineEntry::build`. It writes the brackets into the entry's own
context, so a second call would print them twice. -/
def InlineEntry.build (time : Bytes) (e : InlineEntry) :
    Bytes × InlineEntry :=
  let levelStr := levelToStr e.level ++ bytes " "
  let currTime := bytes "[" ++ time ++ bytes "] "
  let context := bytes "[" ++ e.context ++ bytes "] "
  let res := currTime ++ levelStr ++ context ++ e.message
  let res := res ++
    (if e.level ≠ .status ∧ e.level ≠ .info then
      bytes " (" ++ e.file ++ bytes ":" ++ toStr e.line ++ bytes ", "
        ++ e.function ++ bytes ")"
    else [])
  (res ++ bytes "\n", { e with context := context })

instance : Entry InlineEntry := ⟨InlineEntry.build⟩

-- ============================================================== the ring

def logBufferSize : Nat := 1024
def entryBatchSize : Nat := 10

/-- `log_buffer` with its `head` and `tail`. -/
structure LogRing (ε : Type) where
  slots : Ring.Slots logBufferSize ε := .empty
  head : Nat := 0
  tail : Nat := 0

namespace LogRing

variable {ε : Type}

/-- `Logger::push`, as one step. -/
def push (r : LogRing ε) (e : ε) : LogRing ε :=
  { r with slots := r.slots.put r.head (some e), head := r.head + 1 }

/-- The tail `pop` goes on with: after an overrun it skips the entries
that were written over. -/
def popTail (r : LogRing ε) : Nat :=
  if r.head - r.tail ≥ logBufferSize then r.head - logBufferSize + 1
  else r.tail

/-- `Logger::pop`, as one step. A moved-from slot is null. -/
def pop (r : LogRing ε) : Option ε × LogRing ε :=
  let currTail := r.popTail
  if currTail ≥ r.head then (none, { r with tail := currTail })
  else
    (r.slots.get currTail,
      { r with slots := r.slots.put currTail none, tail := currTail + 1 })

end LogRing

-- ============================================================ the logger

/-- `logger::Logger`: `sinks` is what each sink has received, `joinable`
whether the worker is yet to be joined. -/
structure Logger (ε : Type) where
  ring : LogRing ε := {}
  batch : Nat → Option ε := fun _ => none
  entries : Nat := 0
  joinable : Bool := true
  sinks : List Bytes
  built : Nat := 0

namespace Logger

variable {ε : Type} [Entry ε] (times : Nat → Bytes)

/-- A text goes to every sink. -/
def write (l : Logger ε) (log : Bytes) : Logger ε :=
  { l with sinks := l.sinks.map (· ++ log) }

/-- The first loop of `flush`: the texts of the batch's entries. -/
def buildBatch : List Nat → Bytes → Logger ε → Option (Bytes × Logger ε)
  | [], logs, l => some (logs, l)
  | i :: rest, logs, l =>
      match l.batch i with
      | none => none
      | some e =>
          let (text, e') := Entry.build (times l.built) e
          buildBatch rest (logs ++ text)
            { l with batch := Function.update l.batch i (some e'),
                     built := l.built + 1 }

/-- `Logger::flush`. -/
def flush (l : Logger ε) : Option (Logger ε) := do
  let (logs, l) ← buildBatch times (List.range l.entries) [] l
  return { l.write logs with entries := 0 }

/-- `if(entries > 0) flush()`. -/
def flushPending (l : Logger ε) : Option (Logger ε) :=
  if l.entries > 0 then flush times l else some l

/-- The first lines of `processBatch`, by whether the batch's time is
up. -/
def flushTimeout (timeout : Bool) (l : Logger ε) : Option (Logger ε) :=
  if l.entries > 0 && timeout then flush times l else some l

/-- `Logger::processBatch`, as one step. -/
def processBatch (timeout : Bool) (l : Logger ε) : Option (Logger ε) := do
  let l ← flushTimeout times timeout l
  match l.ring.pop with
  | (none, ring) => some { l with ring := ring }
  | (some e, ring) =>
      if l.entries < entryBatchSize then
        let l := { l with
          ring := ring
          batch := Function.update l.batch l.entries (some e)
          entries := l.entries + 1 }
        if l.entries ≥ entryBatchSize then flush times l else some l
      else none

/-- The `while` of `stopAndFlush`: what is left in the ring, one by one.
It ends at the first null. -/
def drain : Nat → Logger ε → Option (Logger ε)
  | 0, _ => none
  | fuel + 1, l =>
      match l.ring.pop with
      | (none, ring) => some { l with ring := ring }
      | (some e, ring) =>
          drain fuel ({ l with ring := ring, built := l.built + 1 }.write
            (Entry.build (times l.built) e).1)

/-- The join of the worker, which flushes as its `run` ends. -/
def joinWorker (l : Logger ε) : Option (Logger ε) :=
  if l.joinable then
    (flushPending times l).map fun l => { l with joinable := false }
  else some l

/-- `Logger::stopAndFlush`. -/
def stopAndFlush (l : Logger ε) : Option (Logger ε) := do
  let l ← joinWorker times l
  let l ← flushPending times l
  drain times (l.ring.head - l.ring.tail + 1) l

/-- A call. -/
inductive Op (ε : Type)
  | push (e : ε)
  | processBatch (timeout : Bool)
  | stopAndFlush

/-- What a call does. -/
def apply (l : Logger ε) : Op ε → Option (Logger ε)
  | .push e => some { l with ring := l.ring.push e }
  | .processBatch timeout => processBatch times timeout l
  | .stopAndFlush => stopAndFlush times l

/-- A sequence of calls. -/
def run (ops : List (Op ε)) (l : Logger ε) : Option (Logger ε) :=
  ops.foldlM (apply times) l

end Logger

end CgiWebServer
