/-
The files of a sink, one for each day, are the log.

A message is dated by the first reading of the clock in its write. The
dates of a run never go back, so the messages of a day stand together,
and where the sink keeps its day they are in that day's file and in no
other. So the files, read in the order of their dates, are what was
written, in the order it was written: a rotation tears no message apart,
repeats none and puts none before an earlier one. What a failed open or
a failed `::write` loses is missing from it, and nothing else.
-/
import CgiWebServer.Lib.Sections
import CgiWebServer.Proofs.Rotation

namespace CgiWebServer

namespace FileSink

open Sections

-- =============================================================== the files

/-- What a run has appended to a file. -/
def fileText (written : List WrittenMessage) (file : Bytes) : Bytes :=
  (written.filter fun w => w.fd = some file).flatMap (·.data)

/-- A file for each day, and what the days' files hold together. -/
def logText (r : Run) (days : List Bytes) : Bytes :=
  days.flatMap fun day => fileText r.written (r.sink.nameOf day)

/-- Days in their order, with every day a message was written on, and
whose files have names a C string holds. -/
structure DaysOf (r : Run) (days : List Bytes) : Prop where
  sorted : days.Pairwise (· < ·)
  dates : ∀ w ∈ r.written, w.date ∈ days
  names : ∀ day ∈ days, 0 ∉ r.sink.nameOf day

variable {calls : SinkCalls} {path serverName : Bytes}

-- =============================================================== the dates

/-- The dates of a run are readings of the clock before the next one, and
never go back. -/
structure Dated (calls : SinkCalls) (r : Run) : Prop where
  read : ∀ w ∈ r.written, ∃ n < r.sink.reads, w.date = calls.date n
  forward : Forward (· < ·) WrittenMessage.date r.written

/-- A write reads the clock. -/
theorem reads_lt_write (s : FileSink) (message : Bytes) :
    s.reads < (write calls s message).1.reads := by
  by_cases hday : calls.date s.reads = s.dateToday
  · rw [write_sink_same hday]
    exact Nat.lt_succ_self _
  · rw [write_sink_rotated hday]
    show s.reads < s.reads + 1 + 2
    omega

theorem Dated.write (hclock : Nondecreasing calls) {r : Run}
    (h : Dated calls r) (message : Bytes) :
    Dated calls (r.write calls message) := by
  have hreads : r.sink.reads < (r.write calls message).sink.reads :=
    reads_lt_write r.sink message
  refine ⟨fun w hw => ?_, forward_snoc.mpr ⟨h.forward, fun w hw => ?_⟩⟩
  · rcases List.mem_append.mp hw with hold | hnew
    · obtain ⟨n, hn, hdate⟩ := h.read w hold
      exact ⟨n, Nat.lt_trans hn hreads, hdate⟩
    · rw [List.mem_singleton.mp hnew]
      exact ⟨r.sink.reads, hreads, rfl⟩
  · obtain ⟨n, hn, hdate⟩ := h.read w hw
    rw [hdate]
    exact List.not_lt.mpr (hclock n r.sink.reads (Nat.le_of_lt hn))

theorem dated_run (hclock : Nondecreasing calls) (messages : List Bytes) :
    Dated calls (run calls path serverName messages) := by
  induction messages using List.reverseRecOn with
  | nil => exact ⟨fun w hw => absurd hw List.not_mem_nil, List.Pairwise.nil⟩
  | append_singleton messages message ih =>
      rw [run_snoc]
      exact ih.write hclock message

/-- A run writes the messages it is given. -/
theorem messages_run (messages : List Bytes) :
    (run calls path serverName messages).written.map (·.message)
      = messages := by
  induction messages using List.reverseRecOn with
  | nil => rfl
  | append_singleton messages message ih =>
      rw [run_snoc]
      show ((run calls path serverName messages).written ++ [_]).map _ = _
      rw [List.map_append, ih]
      rfl

/-- Where no file is open, nothing is written. -/
theorem data_of_write {s : FileSink} {message : Bytes}
    (hclosed : (write calls s message).2.fd = none) :
    (write calls s message).2.data = [] := by
  rw [write_written] at hclosed ⊢
  exact if_pos hclosed

theorem data_of_closed (messages : List Bytes) :
    ∀ w ∈ (run calls path serverName messages).written,
      w.fd = none → w.data = [] := by
  induction messages using List.reverseRecOn with
  | nil => exact fun w hw => absurd hw List.not_mem_nil
  | append_singleton messages message ih =>
      rw [run_snoc]
      intro w hw hclosed
      rcases List.mem_append.mp hw with hold | hnew
      · exact ih w hold hclosed
      · obtain rfl := List.mem_singleton.mp hnew
        exact data_of_write hclosed

/-- A run that opens its files in one day keeps its day. -/
theorem KeepsDay.of_opens {messages : List Bytes}
    (h : OpensInOneDay calls path serverName messages) :
    KeepsDay calls path serverName messages := by
  have hnew : KeepsDay calls path serverName [] := {
    constructed := named_construct.mpr h.1
    named := Steps.every_nil
    placed := fun _ hw => absurd hw List.not_mem_nil }
  exact (Steps.iff_every hnew keepsDay_snoc messages).mpr h.2

-- ================================================================ one day

/-- A text without a zero is its own C string. -/
theorem cStr_of_not_mem {s : Bytes} (h : 0 ∉ s) : cStr s = s :=
  List.takeWhile_eq_self_iff.mpr fun b hb => by
    simpa using fun hzero : b = 0 => h (hzero ▸ hb)

/-- A day's file holds what was written of the day's messages. -/
theorem fileText_day {r : Run} {days : List Bytes}
    (hcovers : DaysOf r days)
    (hplaced : ∀ w ∈ r.written, ToItsDay r.sink w)
    (hclosed : ∀ w ∈ r.written, w.fd = none → w.data = [])
    {day : Bytes} (hday : day ∈ days) :
    fileText r.written (r.sink.nameOf day)
      = (ofKey WrittenMessage.date r.written day).flatMap (·.data) := by
  have hfile : ∀ w ∈ r.written, w.fd = some (r.sink.nameOf day) →
      w.date = day := by
    intro w hw hfd
    have hname := cStr_of_not_mem (hcovers.names _ (hcovers.dates w hw))
    rcases (hplaced w hw).fd with hnone | hsome
    · rw [hnone] at hfd
      cases hfd
    · rw [hsome, hname] at hfd
      exact nameOf_inj.mp (Option.some.inj hfd)
  have hother : ∀ w ∈ r.written, w.date = day →
      w.fd ≠ some (r.sink.nameOf day) → w.data = [] := by
    rintro w hw rfl hfd
    have hname := cStr_of_not_mem (hcovers.names _ hday)
    rcases (hplaced w hw).fd with hnone | hsome
    · exact hclosed w hw hnone
    · rw [hname] at hsome
      exact absurd hsome hfd
  refine flatMap_filter_congr fun w hw hne => ?_
  by_cases hdate : w.date = day
  · exact hother w hw hdate fun hfd => hne (by simp [hfd, hdate])
  · have hfd : w.fd ≠ some (r.sink.nameOf day) := fun h =>
      hdate (hfile w hw h)
    exact absurd (by simp [hdate, hfd]) hne

-- ================================================================ the log

/-- The sections of a run by its days, and what they hold. -/
theorem logText_eq {r : Run} {days : List Bytes} (hcovers : DaysOf r days)
    (hdated : Dated calls r)
    (hplaced : ∀ w ∈ r.written, ToItsDay r.sink w)
    (hclosed : ∀ w ∈ r.written, w.fd = none → w.data = []) :
    logText r days = r.written.flatMap (·.data) := by
  calc logText r days
      = days.flatMap fun day =>
          (ofKey WrittenMessage.date r.written day).flatMap (·.data) :=
        List.flatMap_congr fun day hday =>
          fileText_day hcovers hplaced hclosed hday
    _ = (days.flatMap (ofKey WrittenMessage.date r.written)).flatMap
          (·.data) := List.flatMap_assoc.symm
    _ = r.written.flatMap (·.data) := by
        rw [flatMap_ofKey (fun _ => List.lt_irrefl _) hcovers.sorted
          hdated.forward hcovers.dates]

/-- For every clock whose dates do not go back, every row of messages
and whatever opens and `::write`s fail, as long as no day begins while a
file is opened: each day's file holds what was written of that day's
messages, and the files in the order of their dates hold what was
written of all messages, in the order they came. Where every open and
every `::write` succeeds, that is the messages themselves. -/
theorem daily_files_hold_log {messages : List Bytes}
    (hclock : Nondecreasing calls)
    (hopens : OpensInOneDay calls path serverName messages)
    {days : List Bytes}
    (hdays : DaysOf (run calls path serverName messages) days) :
    (∀ day ∈ days,
        fileText (run calls path serverName messages).written
            ((run calls path serverName messages).sink.nameOf day)
          = (ofKey WrittenMessage.date
              (run calls path serverName messages).written day).flatMap
                (·.data))
      ∧ logText (run calls path serverName messages) days
          = (run calls path serverName messages).written.flatMap (·.data)
      ∧ ((∀ w ∈ (run calls path serverName messages).written,
            w.fd ≠ none ∧ Covers w.answers w.message.length) →
          logText (run calls path serverName messages) days
            = messages.flatten) := by
  have hkeeps := KeepsDay.of_opens hopens
  have hclosed := @data_of_closed calls path serverName messages
  have hall := logText_eq hdays (dated_run hclock messages) hkeeps.placed
    hclosed
  refine ⟨fun day hday => fileText_day hdays hkeeps.placed hclosed hday,
    hall, fun hwhole => ?_⟩
  have hdata : (run calls path serverName messages).written.map (·.data)
      = (run calls path serverName messages).written.map (·.message) :=
    List.map_congr_left fun w hw =>
      (hkeeps.placed w hw).whole (hwhole w hw).1 (hwhole w hw).2
  rw [hall, List.flatMap_def, hdata, messages_run]

/-- A clock on which the second day begins behind the first message. -/
def secondDay : SinkCalls where
  times n := if n < 4 then bytes "2025-03-01 23:59"
    else bytes "2025-03-02 00:00"
  writes _ := [some 3, some 10]

/-- The second message goes to the second day's file. -/
theorem daily_files_hold_log_second :
    logText (run secondDay (bytes "log") (bytes "server")
        [bytes "one\n", bytes "two\n"])
      [bytes "2025-03-01", bytes "2025-03-02"] = bytes "one\ntwo\n" := by
  have hclock : Nondecreasing secondDay := by
    intro i j hij
    unfold SinkCalls.date secondDay
    dsimp only
    by_cases hj : j < 4
    · rw [if_pos (Nat.lt_of_le_of_lt hij hj), if_pos hj]
      decide
    · rw [if_neg hj]
      split <;> decide
  have hopens : OpensInOneDay secondDay (bytes "log") (bytes "server")
      ([] ++ [bytes "one\n"] ++ [bytes "two\n"]) := by
    refine ⟨by decide, Steps.every_snoc.mpr
      ⟨Steps.every_snoc.mpr ⟨Steps.every_nil, ?_⟩, ?_⟩⟩
    · exact fun hrotates => absurd (by decide) hrotates
    · exact fun _ => by decide
  have hdays : DaysOf (run secondDay (bytes "log") (bytes "server")
      ([] ++ [bytes "one\n"] ++ [bytes "two\n"]))
      [bytes "2025-03-01", bytes "2025-03-02"] :=
    ⟨by decide, by decide, by decide⟩
  have hwhole : ∀ w ∈ (run secondDay (bytes "log") (bytes "server")
      ([] ++ [bytes "one\n"] ++ [bytes "two\n"])).written,
      w.fd ≠ none ∧ none ∉ w.answers
        ∧ w.message.length ≤ taken w.answers := by
    decide
  exact (daily_files_hold_log hclock hopens hdays).2.2 hwhole

end FileSink

end CgiWebServer
