/-
The file sink (Sink.cpp).

The sink keeps one file open and names it by the day. `get_date` reads
the clock at every call: `times` answers the calls of `get_time` in their
order, and `reads` counts them. Whether an `open` succeeds and what the
`::write`s return is told by the number of reads so far.
-/
import CgiWebServer.Basic

namespace CgiWebServer

/-- `get_date`: what `get_time` says up to its first space. -/
def getDate (time : Bytes) : Bytes := time.takeWhile (· ≠ 32)

/-- What the sink finds outside: the clock, whether an `open` succeeds,
and what the `::write`s of a message return, a number of bytes or an
error. -/
structure SinkCalls where
  times : Nat → Bytes
  opens : Nat → Bool := fun _ => true
  writes : Nat → List (Option Nat) := fun _ => []

/-- The answer of a call of `get_date`. -/
def SinkCalls.date (calls : SinkCalls) (n : Nat) : Bytes :=
  getDate (calls.times n)

/-- `logger::FileSink`. `fd` is the file it is open on, `none` for -1;
`reads` counts the calls of `get_date`. -/
structure FileSink where
  fd : Option Bytes := none
  dateToday : Bytes
  path : Bytes
  serverName : Bytes
  fileName : Bytes := []
  reads : Nat := 0

/-- A message that was written: the date `write` read first, the sink's
file by its name and by its descriptor, what the `::write`s returned, and
what they wrote. -/
structure WrittenMessage where
  message : Bytes
  date : Bytes
  fileName : Bytes
  fd : Option Bytes
  answers : List (Option Nat)
  data : Bytes

/-- The `while` of `write`: what it writes before it is through or meets
an error. -/
def writeMessage : List (Option Nat) → Bytes → Bytes
  | _, [] => []
  | [], _ => []
  | none :: _, _ => []
  | some bytes :: rest, message =>
      message.take bytes ++ writeMessage rest (message.drop bytes)

namespace FileSink

variable (calls : SinkCalls)

/-- The name of a day's file. -/
def nameOf (s : FileSink) (date : Bytes) : Bytes :=
  s.path ++ bytes "/" ++ s.serverName ++ bytes "-" ++ date ++ bytes ".log"

/-- `openFile`. It reads the date for the name and once more for
`date_today`. -/
def openFile (s : FileSink) : FileSink :=
  let fileName := s.nameOf (calls.date s.reads)
  { s with
    fileName := fileName
    fd := if calls.opens (s.reads + 1) then some (cStr fileName) else none
    dateToday := calls.date (s.reads + 1)
    reads := s.reads + 2 }

/-- The constructor. -/
def construct (path serverName : Bytes) : FileSink :=
  openFile calls {
    dateToday := calls.date 0
    path := path
    serverName := serverName
    reads := 1 }

/-- `rotateFile`. -/
def rotateFile (s : FileSink) : FileSink :=
  openFile calls { s with fd := none }

/-- `write`. -/
def write (s : FileSink) (message : Bytes) : FileSink × WrittenMessage :=
  let date := calls.date s.reads
  let s' := { s with reads := s.reads + 1 }
  let s' := if s.dateToday ≠ date then rotateFile calls s' else s'
  let answers := calls.writes s'.reads
  (s', {
    message := message
    date := date
    fileName := s'.fileName
    fd := s'.fd
    answers := answers
    data := if s'.fd = none then [] else writeMessage answers message })

/-- A sink and the messages it was given. -/
structure Run where
  sink : FileSink
  written : List WrittenMessage := []

def Run.write (r : Run) (message : Bytes) : Run :=
  let (sink, w) := FileSink.write calls r.sink message
  { sink := sink, written := r.written ++ [w] }

/-- A new sink, and messages written to it one after the other. -/
def run (path serverName : Bytes) (messages : List Bytes) : Run :=
  messages.foldl (Run.write calls)
    { sink := construct calls path serverName }

theorem run_snoc (path serverName : Bytes) (messages : List Bytes)
    (message : Bytes) :
    run calls path serverName (messages ++ [message])
      = (run calls path serverName messages).write calls message := by
  rw [run, List.foldl_append]
  rfl

-- ============================================================= one opening

/-- The name tells the date. -/
theorem nameOf_inj {s : FileSink} {d d' : Bytes} :
    s.nameOf d = s.nameOf d' ↔ d = d' := by
  unfold nameOf
  rw [List.append_left_inj, List.append_right_inj]

variable {calls} {s : FileSink}

/-- A write that finds the day unchanged leaves the sink alone. -/
theorem write_sink_same (h : calls.date s.reads = s.dateToday)
    (message : Bytes) :
    (write calls s message).1 = { s with reads := s.reads + 1 } := by
  unfold write
  dsimp only
  rw [if_neg (not_not.mpr h.symm)]

/-- One that does not opens the file of the date read next. -/
theorem write_sink_rotated (h : calls.date s.reads ≠ s.dateToday)
    (message : Bytes) :
    (write calls s message).1
      = rotateFile calls { s with reads := s.reads + 1 } := by
  unfold write
  dsimp only
  rw [if_pos (Ne.symm h)]

/-- All that is said of a message is what the sink was at its write. -/
theorem write_written (s : FileSink) (message : Bytes) :
    (write calls s message).2 = {
      message := message
      date := calls.date s.reads
      fileName := (write calls s message).1.fileName
      fd := (write calls s message).1.fd
      answers := calls.writes (write calls s message).1.reads
      data := if (write calls s message).1.fd = none then []
        else writeMessage (calls.writes (write calls s message).1.reads)
          message } := rfl

-- ============================================================ one message

/-- What is written of a message is a beginning of it. -/
theorem writeMessage_starts (answers : List (Option Nat)) :
    ∀ message, writeMessage answers message <+: message := by
  induction answers with
  | nil =>
      intro message
      cases message <;> exact List.nil_prefix
  | cons answer rest ih =>
      intro message
      cases message with
      | nil => exact List.prefix_rfl
      | cons b message =>
          cases answer with
          | none => exact List.nil_prefix
          | some n =>
              obtain ⟨more, hmore⟩ := ih ((b :: message).drop n)
              refine ⟨more, ?_⟩
              rw [writeMessage, List.append_assoc, hmore,
                List.take_append_drop]
              exact fun h => by cases h

/-- How many bytes the `::write`s take together. -/
def taken : List (Option Nat) → Nat
  | [] => 0
  | answer :: rest => answer.getD 0 + taken rest

/-- No `::write` fails, and together they take so many bytes. -/
def Covers (answers : List (Option Nat)) (size : Nat) : Prop :=
  none ∉ answers ∧ size ≤ taken answers

/-- Then the whole message is written. -/
theorem writeMessage_of_covers (answers : List (Option Nat)) :
    ∀ message, Covers answers message.length →
      writeMessage answers message = message := by
  induction answers with
  | nil =>
      intro message h
      have hlength : message.length = 0 := Nat.le_zero.mp h.2
      rw [List.length_eq_zero_iff.mp hlength]
      rfl
  | cons answer rest ih =>
      intro message h
      obtain ⟨hfails, hsize⟩ := h
      cases message with
      | nil => rfl
      | cons b message =>
          cases answer with
          | none => exact absurd List.mem_cons_self hfails
          | some n =>
              rw [taken, Option.getD_some] at hsize
              have hrest : Covers rest ((b :: message).drop n).length := by
                refine ⟨fun hmem => hfails (List.mem_cons_of_mem _ hmem), ?_⟩
                rw [List.length_drop]
                omega
              rw [writeMessage, ih _ hrest, List.take_append_drop]
              exact fun hnil => by cases hnil

end FileSink

end CgiWebServer
