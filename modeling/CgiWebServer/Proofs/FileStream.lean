/-
A file's bytes reach the socket in order, and all of them if the stream
returns.

# The two counters

The offset is what has been read, and every byte read has been accepted
before the next read: a chunk whose write does not end in success ends
the stream. `bytes_sent` may lag behind it, never run ahead
(`coWriteAll_accepted` bounds the report by the acceptance). So when
`bytes_sent` reaches the length, or a read finds the end of the file,
the offset is at the end as well.
-/
import CgiWebServer.Net.Streamer

namespace CgiWebServer

/-- A read that finds nothing is at the end of the file. -/
theorem read_nil {file : File} {offset want : Nat} {r : ReadAnswer}
    (hwant : 0 < want) (hread : file.read offset want r = some []) :
    file.content.length ≤ offset := by
  cases r with
  | error => exact absurd hread (by simp [File.read])
  | bytes n =>
      simp only [File.read, Option.some.injEq, List.take_eq_nil_iff,
        List.drop_eq_nil_iff] at hread
      omega

/-- What a read returns is the next piece of the file. -/
theorem read_some {file : File} {offset want : Nat} {r : ReadAnswer}
    {chunk : Bytes} (hread : file.read offset want r = some chunk) (j : Nat)
    (hj : j ≤ chunk.length) :
    file.content.take offset ++ chunk.take j
      = file.content.take (offset + j) := by
  cases r with
  | error => exact absurd hread (by simp [File.read])
  | bytes n =>
      simp only [File.read, Option.some.injEq] at hread
      subst hread
      rw [List.length_take] at hj
      rw [List.take_take, Nat.min_eq_left (by omega), List.take_add]

/-- A read stays inside the file. -/
theorem read_le {file : File} {offset want : Nat} {r : ReadAnswer}
    {chunk : Bytes} (hread : file.read offset want r = some chunk)
    (hoffset : offset ≤ file.content.length) :
    offset + chunk.length ≤ file.content.length := by
  cases r with
  | error => exact absurd hread (by simp [File.read])
  | bytes n =>
      simp only [File.read, Option.some.injEq] at hread
      subst hread
      rw [List.length_take, List.length_drop]
      omega

/-- What is known of a run over a file: its accepted bytes are the file
up to some point, the end if it returned. -/
def Delivers (content : Bytes) (run : StreamRun) : Prop :=
  ∃ k, run.accepted = content.take k
    ∧ ∀ n, run.result = .returned n → content.length ≤ k

/-- The loop, from any state whose accepted bytes are the file up to the
offset and whose `bytes_sent` is not past it. -/
theorem delivers_fileStreamLoop (path : Bytes) (file : File)
    (socket : Nat → List WriteAnswer) :
    ∀ (reads : List ReadAnswer) (offset bytesSent call : Nat),
      bytesSent ≤ offset → offset ≤ file.content.length →
      Delivers file.content
        (fileStreamLoop path file file.content.length socket reads offset
          bytesSent call (file.content.take offset)) := by
  intro reads
  induction reads with
  | nil =>
      intro offset bytesSent call hlag hoffset
      unfold fileStreamLoop
      split
      next => exact ⟨offset, rfl, fun n hn => by cases hn⟩
      next hdone => exact ⟨offset, rfl, fun _ _ => by omega⟩
  | cons r rest ih =>
      intro offset bytesSent call hlag hoffset
      unfold fileStreamLoop
      split
      next hmore =>
        have hwant : 0 < min bufferSize
            (file.content.length - bytesSent) := by
          have : 0 < bufferSize := by decide
          omega
        cases hread : file.read offset
            (min bufferSize (file.content.length - bytesSent)) r with
        | none =>
            simp only [hread]
            exact ⟨offset, rfl, fun n hn => by cases hn⟩
        | some chunk =>
            cases chunk with
            | nil =>
                simp only [hread]
                exact ⟨offset, rfl, fun _ _ => read_nil hwant hread⟩
            | cons b chunk =>
                -- Up to `j` bytes of the chunk are accepted, whatever
                -- the write reports.
                obtain ⟨j, hj, hacc, hres⟩ :=
                  coWriteAll_accepted (b :: chunk) (socket call)
                have hsofar := read_some hread j hj
                simp only [hread, hacc, hsofar]
                split
                next => exact ⟨offset + j, rfl, fun n hn => by cases hn⟩
                next result hresult =>
                  obtain ⟨hreport, hall⟩ := hres result hresult
                  split
                  next hsuccess =>
                    obtain rfl := hall hsuccess
                    exact ih _ _ _ (by omega) (read_le hread hoffset)
                  next =>
                    exact ⟨offset + j, rfl, fun n hn => by cases hn⟩
      next hdone => exact ⟨offset, rfl, fun _ _ => by omega⟩

/-- While an opened file whose length is still its content's is streamed,
the bytes the socket has accepted are a prefix of its content, and if the
stream returns they are its content. The reads and the socket's answers
are taken as far as they have come: where they end, the run waits, so
every moment of a longer run is a run of this kind. -/
theorem fileStream_delivers (path : Bytes) (file : File)
    (socket : Nat → List WriteAnswer) :
    (fileStream path file file.content.length socket).accepted
        <+: file.content
      ∧ ∀ n, (fileStream path file file.content.length socket).result
            = .returned n →
          (fileStream path file file.content.length socket).accepted
            = file.content := by
  obtain ⟨k, hacc, hret⟩ := delivers_fileStreamLoop path file socket
    file.reads 0 0 0 (Nat.le_refl _) (Nat.zero_le _)
  unfold fileStream
  rw [List.take_zero] at hacc hret
  refine ⟨?_, fun n hn => ?_⟩
  · rw [hacc]
    exact List.take_prefix _ _
  · rw [hacc]
    exact List.take_of_length_le (hret n hn)

end CgiWebServer
