/-
The server's loop and its threads (Server.cpp, Server.h).

`run` waits for one result of `async_accept` after another. The result
goes through `isError`, which keeps the retry counter; unless that says
`true`, `run` starts a session on the socket it passed to the call. A
`FATAL` flushes the log and exits the process, so nothing comes behind
it.

`start` takes the configured thread count, asks for room for two threads
less, creates that many and runs the `io_context` on them and on itself.
The subtraction is one of `std::size_t`. The vector's room and the
threads are the machine's to grant.
-/
import CgiWebServer.Net.Write

namespace CgiWebServer

-- ============================================================ accepting

namespace Accept

/-- `MAX_RETRIES` of Server.h. -/
def maxRetries : Nat := 5

/-- The codes `isError` ends the process for at once. -/
def isFatal (error : ErrorCode) : Bool :=
  error == .badDescriptor || error == .accessDenied
    || error == .addressInUse

/-- The codes `isError` backs off for. -/
def backsOff (error : ErrorCode) : Bool :=
  error == .wouldBlock || error == .tryAgain || error == .networkUnreachable
    || error == .connectionRefused || error == .timedOut
    || error == .noBufferSpace || error == .hostUnreachable

/-- `isError`, on the counter: what it returns and the counter it leaves,
or `none` for a `FATAL`. -/
def isError (error : ErrorCode) (retries : Nat) : Option (Bool × Nat) :=
  if error = .ok then some (false, 0)
  else if retries > maxRetries ∨ isFatal error then none
  else if backsOff error then some (false, retries + 1)
  else some (false, retries)

/-- Where `run` is: waiting for a result, back (`co_return`), or ended by
a `FATAL`. -/
inductive Status
  | waiting
  | returned
  | fatal
  deriving DecidableEq, Repr

/-- `_retries` and where `run` is; ghost: the results taken so far, and
the places among them of those a session was started for. -/
structure State where
  retries : Nat := 0
  status : Status := .waiting
  taken : List ErrorCode := []
  sessions : List Nat := []
  deriving DecidableEq, Repr

/-- One turn of the `while` of `run`. -/
def turn (s : State) (ec : ErrorCode) : State :=
  match s.status with
  | .waiting =>
      match isError ec s.retries with
      | none => { s with status := .fatal, taken := s.taken ++ [ec] }
      | some (true, retries) =>
          { s with
            retries := retries, status := .returned,
            taken := s.taken ++ [ec] }
      | some (false, retries) =>
          { s with
            retries := retries, taken := s.taken ++ [ec],
            sessions := s.sessions ++ [s.taken.length] }
  | _ => s

/-- `run`, as far as the results have come. -/
def run (results : List ErrorCode) : State := results.foldl turn {}

end Accept

-- ============================================================== threads

namespace Threads

/-- What the machine grants: room for so many `std::thread`s in a vector,
and each thread that is created. -/
structure Grant where
  reserves : Nat → Bool
  creates : Nat → Bool

/-- How `start` stands: `reserve` threw, the constructor of a thread
threw, or the `io_context` runs. -/
inductive Started
  | reserveThrew
  | threadThrew (workers : Nat)
  | running (reserved workers ioThreads : Nat)
  deriving DecidableEq, Repr

/-- The `for` of `start`, with `i` threads created and `left` to go. -/
def spawnWorkers (grant : Grant) (reserved : Nat) : Nat → Nat → Started
  | 0, i => .running reserved i (i + 1)
  | left + 1, i =>
      if grant.creates i then spawnWorkers grant reserved left (i + 1)
      else .threadThrew i

/-- `thread_count - 2`, in `std::size_t`. -/
def workerCount (threadCount : Nat) : Nat :=
  (UInt64.ofNat threadCount - 2).toNat

/-- `Server::start`. -/
def start (grant : Grant) (threadCount : Nat) : Started :=
  let reserved := workerCount threadCount
  if grant.reserves reserved then spawnWorkers grant reserved reserved 0
  else .reserveThrew

end Threads

end CgiWebServer
