/-
The day's file, over the writes of a sink.

`openFile` reads the date for the name and once more for `date_today`,
and a rotation begins with a third reading, in `write`. Where a day
begins between two of these, the file is named for one day and taken for
another's until the next day begins. The sink keeps its day exactly where
no day begins while a file is being opened (`keeps_day_iff`).
-/
import CgiWebServer.Lib.Steps
import CgiWebServer.Log.Sink

namespace CgiWebServer

namespace FileSink

-- ======================================================== what is asked

/-- `date_today` is the date the file is named by. -/
def Named (s : FileSink) : Prop := s.fileName = s.nameOf s.dateToday

/-- A message went to the file of the date `write` read first: that is
the file the sink had, and the open one if any was, into which a
beginning of it was written, and all of it if the `::write`s took it. -/
structure ToItsDay (s : FileSink) (w : WrittenMessage) : Prop where
  fileName : w.fileName = s.nameOf w.date
  fd : w.fd = none ∨ w.fd = some (cStr (s.nameOf w.date))
  data : w.data <+: w.message
  whole : w.fd ≠ none → Covers w.answers w.message.length →
    w.data = w.message

variable (calls : SinkCalls) (path serverName : Bytes)

/-- The sink keeps its day: behind the constructor and every write it is
named by its date, and every message went to its day's file. -/
structure KeepsDay (messages : List Bytes) : Prop where
  constructed : (construct calls path serverName).Named
  named : Steps.Every (fun before message =>
    (run calls path serverName (before ++ [message])).sink.Named) messages
  placed : ∀ w ∈ (run calls path serverName messages).written,
    ToItsDay (run calls path serverName messages).sink w

/-- A write at a sink opens no file, or the date is the same at its three
readings. -/
def SameDay (s : FileSink) : Prop :=
  calls.date s.reads ≠ s.dateToday →
    calls.date s.reads = calls.date (s.reads + 1)
      ∧ calls.date (s.reads + 1) = calls.date (s.reads + 2)

/-- No day begins while a file is opened: not between the two readings of
the constructor's `openFile`, and not between those of a write that
rotates. -/
def OpensInOneDay (messages : List Bytes) : Prop :=
  calls.date 1 = calls.date 2
    ∧ Steps.Every (fun before _ =>
        SameDay calls (run calls path serverName before).sink) messages

-- =========================================================== one write

variable {calls path serverName} {s : FileSink}

/-- The constructor's sink is named by its date where the two readings of
`openFile` agree. -/
theorem named_construct :
    (construct calls path serverName).Named
      ↔ calls.date 1 = calls.date 2 :=
  nameOf_inj

/-- The descriptor is open on the file the name tells. -/
def FdNamed (s : FileSink) : Prop :=
  s.fd = none ∨ s.fd = some (cStr s.fileName)

theorem fdNamed_openFile (s : FileSink) : (openFile calls s).FdNamed := by
  unfold FdNamed openFile
  dsimp only
  cases calls.opens (s.reads + 1) with
  | true => exact Or.inr rfl
  | false => exact Or.inl rfl

theorem fdNamed_write (h : s.FdNamed) (message : Bytes) :
    (write calls s message).1.FdNamed := by
  by_cases hday : calls.date s.reads = s.dateToday
  · rw [write_sink_same hday]
    exact h
  · rw [write_sink_rotated hday]
    exact fdNamed_openFile _

/-- A sink's files have one pattern. -/
theorem nameOf_write (s : FileSink) (message date : Bytes) :
    (write calls s message).1.nameOf date = s.nameOf date := by
  by_cases hday : calls.date s.reads = s.dateToday
  · rw [write_sink_same hday]
    rfl
  · rw [write_sink_rotated hday]
    rfl

theorem ToItsDay.of_nameOf {s s' : FileSink} {w : WrittenMessage}
    (hname : ∀ date, s'.nameOf date = s.nameOf date) :
    ToItsDay s' w ↔ ToItsDay s w := by
  constructor
  · intro h
    exact { h with
      fileName := h.fileName.trans (hname _)
      fd := hname w.date ▸ h.fd }
  · intro h
    exact { h with
      fileName := h.fileName.trans (hname _).symm
      fd := (hname w.date).symm ▸ h.fd }

/-- What a write says of its message, apart from the file's name, is so
at every sink. -/
theorem toItsDay_iff (h : s.FdNamed) (message : Bytes) :
    ToItsDay s (write calls s message).2
      ↔ (write calls s message).1.fileName
          = s.nameOf (calls.date s.reads) := by
  constructor
  · intro hday
    exact hday.fileName
  · intro hname
    have hfd : (write calls s message).1.FdNamed := fdNamed_write h message
    refine {
      fileName := hname
      fd := ?_
      data := ?_
      whole := ?_ }
    · rw [FdNamed, hname] at hfd
      exact hfd
    · rw [write_written]
      dsimp only
      split
      next => exact List.nil_prefix
      next => exact writeMessage_starts _ _
    · intro hopen hcovers
      rw [write_written] at hopen hcovers ⊢
      dsimp only at hopen hcovers ⊢
      rw [if_neg hopen]
      exact writeMessage_of_covers _ _ hcovers

/-- At a sink that is named by its date, a write keeps the name and puts
the message into its day's file exactly where it opens no file or opens
it in one day. -/
theorem write_keeps_iff (hnamed : s.Named) (hfd : s.FdNamed)
    (message : Bytes) :
    (write calls s message).1.Named
        ∧ ToItsDay s (write calls s message).2
      ↔ SameDay calls s := by
  rw [toItsDay_iff hfd]
  by_cases hday : calls.date s.reads = s.dateToday
  · rw [write_sink_same hday]
    refine iff_of_true ⟨hnamed, ?_⟩ fun hne => absurd hday hne
    rw [hday]
    exact hnamed
  · rw [write_sink_rotated hday]
    have hrotated : (rotateFile calls { s with reads := s.reads + 1 }).Named
        ↔ calls.date (s.reads + 1) = calls.date (s.reads + 2) := nameOf_inj
    have hname : (rotateFile calls { s with reads := s.reads + 1 }).fileName
          = s.nameOf (calls.date s.reads)
        ↔ calls.date (s.reads + 1) = calls.date s.reads := nameOf_inj
    rw [hrotated, hname]
    constructor
    · rintro ⟨htoday, hfirst⟩ -
      exact ⟨hfirst.symm, htoday⟩
    · intro h
      obtain ⟨hfirst, htoday⟩ := h hday
      exact ⟨htoday, hfirst.symm⟩

-- ================================================================ the runs

theorem fdNamed_run (messages : List Bytes) :
    (run calls path serverName messages).sink.FdNamed := by
  induction messages using List.reverseRecOn with
  | nil => exact fdNamed_openFile _
  | append_singleton messages message ih =>
      rw [run_snoc]
      exact fdNamed_write ih message

/-- Behind every run that keeps its day the sink is named by its date. -/
theorem KeepsDay.named_last {messages : List Bytes}
    (h : KeepsDay calls path serverName messages) :
    (run calls path serverName messages).sink.Named := by
  rcases List.eq_nil_or_concat messages with rfl | ⟨before, message, rfl⟩
  · exact h.constructed
  · rw [List.concat_eq_append] at h ⊢
    exact h.named before message [] rfl

/-- One more message. -/
theorem keepsDay_snoc (messages : List Bytes) (message : Bytes) :
    KeepsDay calls path serverName (messages ++ [message])
      ↔ KeepsDay calls path serverName messages
        ∧ SameDay calls (run calls path serverName messages).sink := by
  have hfd := @fdNamed_run calls path serverName messages
  -- The pattern of the names is fixed when the sink is made.
  have hpattern : ∀ date,
      (write calls (run calls path serverName messages).sink message).1.nameOf
          date
        = (run calls path serverName messages).sink.nameOf date :=
    nameOf_write _ message
  constructor
  · intro h
    have hplaced := h.placed
    have hlast := h.named_last
    rw [run_snoc] at hplaced hlast
    have hbefore : KeepsDay calls path serverName messages := {
      constructed := h.constructed
      named := (Steps.every_snoc.mp h.named).1
      placed := fun w hw => (ToItsDay.of_nameOf hpattern).mp
        (hplaced w (List.mem_append_left _ hw)) }
    refine ⟨hbefore, (write_keeps_iff hbefore.named_last hfd message).mp
      ⟨hlast, ?_⟩⟩
    exact (ToItsDay.of_nameOf hpattern).mp
      (hplaced _ (List.mem_append_right _ (List.mem_singleton.mpr rfl)))
  · rintro ⟨h, hday⟩
    obtain ⟨hnamed, hwritten⟩ :=
      (write_keeps_iff h.named_last hfd message).mpr hday
    refine {
      constructed := h.constructed
      named := Steps.every_snoc.mpr ⟨h.named, ?_⟩
      placed := ?_ }
    · rw [run_snoc]
      exact hnamed
    · rw [run_snoc]
      intro w hw
      apply (ToItsDay.of_nameOf hpattern).mpr
      rcases List.mem_append.mp hw with hold | hnew
      · exact h.placed w hold
      · rw [List.mem_singleton.mp hnew]
        exact hwritten

/-- The dates of a clock never go back. -/
def Nondecreasing (calls : SinkCalls) : Prop :=
  ∀ i j, i ≤ j → calls.date i ≤ calls.date j

end FileSink

end CgiWebServer
