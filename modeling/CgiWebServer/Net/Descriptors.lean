/-
The descriptors of a script run (Streamer.cpp), among other sessions.

A `ScriptStreamer` keeps its two pipes' numbers in two arrays, which are
not initialised. `spawn` makes the pipes, `spawnProcess` closes the
child's ends once the child runs, `spawn` closes the child's standard
input when it has written to it, `stream` gives the last end to a
`stream_descriptor` that closes it when its scope is left, and the
destructor closes all four numbers, whatever happened. Each of these
calls is one step, so that other sessions may open and close descriptors
between any two.

The process's table gives out any free number. What a `close` does is to
make its number free.
-/
import CgiWebServer.Lib.Handles
import CgiWebServer.Lib.Interleave

namespace CgiWebServer

namespace Descriptors

open Interleave

-- =============================================================== a script

/-- `stdin_pipe` and `stdout_pipe`. -/
structure Pipes where
  stdin0 : Int
  stdin1 : Int
  stdout0 : Int
  stdout1 : Int
  deriving DecidableEq, Repr

/-- The numbers in the order in which `~ScriptStreamer` closes them. -/
def Pipes.all (p : Pipes) : List Int :=
  [p.stdin0, p.stdin1, p.stdout0, p.stdout1]

/-- How a run has come to its destructor: a failed call threw, or
`stream` was left with its reader built (at the end of the script's
output, or by a read or a write that failed). -/
inductive Exit
  | stdinPipe
  | stdoutPipe
  | launch
  | write
  | attach
  | streamed
  deriving DecidableEq, Repr

/-- Where a run is: what it has done last. -/
inductive Phase
  | constructed
  | stdinMade
  | piped
  | launched
  | stdin0Closed
  | spawned
  | written
  | stdin1Closed
  | reading
  | destructor (exit : Exit) (closed : Nat)
  deriving DecidableEq, Repr

/-- The next `close` of a run, and where it is behind it. -/
def Phase.nextClose (p : Pipes) : Phase → Option (Int × Phase)
  | .launched => some (p.stdin0, .stdin0Closed)
  | .stdin0Closed => some (p.stdout1, .spawned)
  | .written => some (p.stdin1, .stdin1Closed)
  | .reading => some (p.stdout0, .destructor .streamed 0)
  | .destructor exit closed =>
      p.all[closed]?.map fun n => (n, .destructor exit (closed + 1))
  | _ => none

-- =============================================================== threads

/-- Who arrives: a script run, with what its arrays' memory holds, or
another session. -/
inductive Caller
  | script (memory : Pipes)
  | session
  deriving DecidableEq, Repr

/-- A script run or another session, with the name the table knows it
by. -/
inductive Thread
  | arriving (caller : Caller)
  | script (id : Nat) (pipes : Pipes) (phase : Phase)
  | session (id : Nat) (held : List Int)
  deriving DecidableEq, Repr

/-- A thread gets its name. -/
def Caller.begin (id : Nat) : Caller → Thread
  | .script memory => .script id memory .constructed
  | .session => .session id []

/-- A step: the calls of a script run with their outcomes, its closes,
and what other sessions do. -/
inductive Move
  | begin
  | pipe (made : Option (Int × Int))
  | launch (ok : Bool)
  | write (ok : Bool)
  | attach (ok : Bool)
  | read
  | close
  | sessionOpen (n : Int)
  | sessionClose (n : Int)
  deriving DecidableEq, Repr

/-- A `close` of a script run, with whom the number belonged to. -/
structure Closed where
  streamer : Nat
  number : Int
  owner : Option Nat
  deriving DecidableEq, Repr

/-- The table; ghost: the next name, and the script runs' closes. -/
structure Process where
  table : Handles.Table Int Nat := {}
  next : Nat := 0
  closes : List Closed := []

namespace Process

/-- A number that a call may hand out. -/
def isFree (s : Process) (n : Int) : Bool := 0 ≤ n ∧ s.table.owner n = none

def take (s : Process) (n : Int) (id : Nat) : Process :=
  { s with table := s.table.take n id }

def free (s : Process) (n : Int) : Process :=
  { s with table := s.table.free n }

/-- A `close` of a script run. -/
def close (s : Process) (n : Int) (id : Nat) : Process :=
  { s.free n with closes := s.closes ++ [⟨id, n, s.table.owner n⟩] }

end Process

/-- `pipe`, that fails or makes two free numbers. -/
def makePipe (s : Process) (id : Nat) :
    Option (Int × Int) → Option (Option (Int × Int) × Process)
  | none => some (none, s)
  | some (a, b) =>
      if s.isFree a ∧ s.isFree b ∧ a ≠ b then
        some (some (a, b), (s.take a id).take b id)
      else none

/-- A step of one thread. -/
def step : Move → Process → Thread → Option (Process × Thread)
  | .begin, s, .arriving caller =>
      some ({ s with next := s.next + 1 }, caller.begin s.next)
  | .pipe made, s, .script id p .constructed =>
      (makePipe s id made).map fun
        | (some (a, b), s) =>
            (s, .script id { p with stdin0 := a, stdin1 := b } .stdinMade)
        | (none, s) => (s, .script id p (.destructor .stdinPipe 0))
  | .pipe made, s, .script id p .stdinMade =>
      (makePipe s id made).map fun
        | (some (a, b), s) =>
            (s, .script id { p with stdout0 := a, stdout1 := b } .piped)
        | (none, s) => (s, .script id p (.destructor .stdoutPipe 0))
  | .launch ok, s, .script id p .piped =>
      some (s, .script id p
        (if ok then .launched else .destructor .launch 0))
  | .write ok, s, .script id p .spawned =>
      some (s, .script id p
        (if ok then .written else .destructor .write 0))
  | .attach ok, s, .script id p .stdin1Closed =>
      some (s, .script id p
        (if ok then .reading else .destructor .attach 0))
  | .read, s, .script id p .reading => some (s, .script id p .reading)
  | .close, s, .script id p phase =>
      (phase.nextClose p).map fun (n, phase) =>
        (s.close n id, .script id p phase)
  | .sessionOpen n, s, .session id held =>
      if s.isFree n then some (s.take n id, .session id (n :: held))
      else none
  | .sessionClose n, s, .session id held =>
      if n ∈ held then some (s.free n, .session id (held.erase n))
      else none
  | _, _, _ => none

/-- Script runs and other sessions over one process's table. -/
def program : Program Process Thread Caller Move where
  start := .arriving
  step := step

-- ============================================================== its cases

/-- The steps of a run that open and close nothing. -/
inductive Phase.Turns : Phase → Phase → Prop
  | stdinFails : Turns .constructed (.destructor .stdinPipe 0)
  | stdoutFails : Turns .stdinMade (.destructor .stdoutPipe 0)
  | launches : Turns .piped .launched
  | launchFails : Turns .piped (.destructor .launch 0)
  | writes : Turns .spawned .written
  | writeFails : Turns .spawned (.destructor .write 0)
  | attaches : Turns .stdin1Closed .reading
  | attachFails : Turns .stdin1Closed (.destructor .attach 0)
  | reads : Turns .reading .reading

/-- The steps of a run that make a pipe, with the arrays they leave. -/
inductive Phase.Makes (p : Pipes) (a b : Int) :
    Phase → Pipes → Phase → Prop
  | stdin : Makes p a b .constructed
      { p with stdin0 := a, stdin1 := b } .stdinMade
  | stdout : Makes p a b .stdinMade
      { p with stdout0 := a, stdout1 := b } .piped

/-- A pipe that was made. -/
theorem makePipe_some {s s' : Process} {id : Nat}
    {made : Option (Int × Int)} {a b : Int}
    (h : makePipe s id made = some (some (a, b), s')) :
    s.isFree a = true ∧ s.isFree b = true ∧ a ≠ b
      ∧ s' = (s.take a id).take b id := by
  cases made with
  | none => exact absurd h (by simp [makePipe])
  | some ab =>
      obtain ⟨x, y⟩ := ab
      by_cases hfree : s.isFree x ∧ s.isFree y ∧ x ≠ y
      · rw [makePipe, if_pos hfree] at h
        cases h
        exact ⟨hfree.1, hfree.2.1, hfree.2.2, rfl⟩
      · rw [makePipe, if_neg hfree] at h
        exact absurd h (by simp)

/-- A pipe that failed. -/
theorem makePipe_none {s s' : Process} {id : Nat}
    {made : Option (Int × Int)}
    (h : makePipe s id made = some (none, s')) : s' = s := by
  cases made with
  | none => exact ((Prod.mk.inj (Option.some.inj h)).2).symm
  | some ab =>
      obtain ⟨x, y⟩ := ab
      rw [makePipe] at h
      split at h
      · exact absurd (Prod.mk.inj (Option.some.inj h)).1 (by simp)
      · exact absurd h (by simp)

/-- What a step does, by its kind: a thread begins, a run's pipe is made,
a run goes on without a call on a descriptor, a run closes a number, or a
session opens or frees one. -/
inductive ThreadStep (s : Process) : Thread → Process → Thread → Prop
  | begins {caller : Caller} :
      ThreadStep s (.arriving caller) { s with next := s.next + 1 }
        (caller.begin s.next)
  | makes {id : Nat} {p p' : Pipes} {phase phase' : Phase} {a b : Int}
      (hmakes : phase.Makes p a b p' phase') (ha : s.isFree a = true)
      (hb : s.isFree b = true) (hab : a ≠ b) :
      ThreadStep s (.script id p phase) ((s.take a id).take b id)
        (.script id p' phase')
  | turns {id : Nat} {p : Pipes} {phase phase' : Phase}
      (hturns : phase.Turns phase') :
      ThreadStep s (.script id p phase) s (.script id p phase')
  | closes {id : Nat} {p : Pipes} {phase phase' : Phase} {n : Int}
      (hclose : phase.nextClose p = some (n, phase')) :
      ThreadStep s (.script id p phase) (s.close n id)
        (.script id p phase')
  | opens {id : Nat} {held : List Int} {n : Int}
      (hfree : s.isFree n = true) :
      ThreadStep s (.session id held) (s.take n id)
        (.session id (n :: held))
  | frees {id : Nat} {held : List Int} {n : Int} (hmem : n ∈ held) :
      ThreadStep s (.session id held) (s.free n)
        (.session id (held.erase n))

/-- A thread does no other step. -/
theorem threadStep_of {m : Move} {s s' : Process} {t t' : Thread}
    (hstep : step m s t = some (s', t')) : ThreadStep s t s' t' := by
  unfold step at hstep
  split at hstep
  case h_1 caller =>
    cases hstep
    exact .begins
  case h_2 made id p =>
    obtain ⟨⟨r, s₁⟩, hmade, hout⟩ := Option.map_eq_some_iff.mp hstep
    rcases r with _ | ⟨a, b⟩
    · cases hout
      obtain rfl := makePipe_none hmade
      exact .turns .stdinFails
    · cases hout
      obtain ⟨ha, hb, hab, rfl⟩ := makePipe_some hmade
      exact .makes .stdin ha hb hab
  case h_3 made id p =>
    obtain ⟨⟨r, s₁⟩, hmade, hout⟩ := Option.map_eq_some_iff.mp hstep
    rcases r with _ | ⟨a, b⟩
    · cases hout
      obtain rfl := makePipe_none hmade
      exact .turns .stdoutFails
    · cases hout
      obtain ⟨ha, hb, hab, rfl⟩ := makePipe_some hmade
      exact .makes .stdout ha hb hab
  case h_4 ok id p =>
    cases hstep
    refine .turns ?_
    cases ok with
    | true => exact .launches
    | false => exact .launchFails
  case h_5 ok id p =>
    cases hstep
    refine .turns ?_
    cases ok with
    | true => exact .writes
    | false => exact .writeFails
  case h_6 ok id p =>
    cases hstep
    refine .turns ?_
    cases ok with
    | true => exact .attaches
    | false => exact .attachFails
  case h_7 id p =>
    cases hstep
    exact .turns .reads
  case h_8 id p phase =>
    obtain ⟨⟨n, phase'⟩, hclose, hout⟩ := Option.map_eq_some_iff.mp hstep
    cases hout
    exact .closes hclose
  case h_9 n id held =>
    split at hstep
    case isTrue hfree =>
      cases hstep
      exact .opens hfree
    case isFalse => cases hstep
  case h_10 n id held =>
    split at hstep
    case isTrue hmem =>
      cases hstep
      exact .frees hmem
    case isFalse => cases hstep
  case h_11 => cases hstep

end Descriptors

end CgiWebServer
