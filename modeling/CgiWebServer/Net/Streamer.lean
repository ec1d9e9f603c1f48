/-
`FileStreamer` (Streamer.cpp): opening a file, and sending it chunk by
chunk.

Two counters run over the same file. `read` moves the descriptor's
offset by what it read; `bytes_sent` grows by what `co_write_all`
reports, which can be less than what the socket accepted (a write whose
error is not reported before the buffer is full). The model keeps both.
-/
import CgiWebServer.Net.Write
import CgiWebServer.Http.Message

namespace CgiWebServer

/-- `BUFFER_SIZE`. -/
def bufferSize : Nat := 262144

/-- What one `read` does: it returns some bytes, as far as the file and
the request go, or it fails. -/
inductive ReadAnswer
  | bytes (n : Nat)
  | error
  deriving DecidableEq, Repr

/-- A file as one `open` finds it: whether that succeeds, what the
`lseek` to its end says, its bytes, and how its `read`s go. -/
structure File where
  opens : Bool := false
  fileLen : Int := -1
  content : Bytes := []
  reads : List ReadAnswer := []

namespace File

/-- The bytes of one `read` at an offset: none at the end of the file,
else at least one and at most `want`. -/
def read (file : File) (offset want : Nat) : ReadAnswer → Option Bytes
  | .bytes n => some ((file.content.drop offset).take (min (max 1 n) want))
  | .error => none

end File

/-- The exception of a write that failed; its message is asio's. -/
def writeFailed (status : Code) : Exn := .http (.mk' status [] ∅)

/-- `FileStreamer::openFile`: the file's length. The `errno` text is left
out of the messages. -/
def openFile (path : Bytes) (file : File) : Except Exn Nat :=
  if file.opens = false then
    .error (.http (.mk' .notFound
      (bytes "Failed to open resource: " ++ path) ∅))
  else if file.fileLen ≤ 0 then
    .error (.http (.mk' .notFound
      (bytes "Failed to open endpoint=" ++ path) ∅))
  else .ok file.fileLen.toNat

/-- How a stream stands: it returned with its byte count, threw, or
waits for a read or for the socket. -/
inductive StreamEnd
  | returned (bytesStreamed : Nat)
  | threw (e : Exn)
  | pending
  deriving DecidableEq

/-- A run of a streamer: how it stands, and the bytes the socket has
accepted. -/
structure StreamRun where
  result : StreamEnd
  accepted : Bytes

/-- The `while` of `FileStreamer::stream`. `socket i` is what the socket
answers the `i`-th call of `co_write_all` with, from the first answer
that call gets. -/
def fileStreamLoop (path : Bytes) (file : File) (fileLen : Nat)
    (socket : Nat → List WriteAnswer) :
    List ReadAnswer → (offset bytesSent call : Nat) → Bytes → StreamRun
  | reads, offset, bytesSent, call, accepted =>
      if bytesSent < fileLen then
        match reads with
        | [] => ⟨.pending, accepted⟩
        | r :: rest =>
            let bytesToRead := min bufferSize (fileLen - bytesSent)
            match file.read offset bytesToRead r with
            | none =>
                ⟨.threw (.http (.mk' .internalServerError
                  (CgiWebServer.bytes "Failed reading file " ++ path) ∅)),
                  accepted⟩
            | some [] => ⟨.returned bytesSent, accepted⟩
            | some chunk =>
                let run := coWriteAll chunk (socket call)
                let accepted' := accepted ++ run.accepted
                match run.result with
                | none => ⟨.pending, accepted'⟩
                | some result =>
                    if isSuccessCode result.status then
                      fileStreamLoop path file fileLen socket rest
                        (offset + chunk.length) (bytesSent + result.bytes)
                        (call + 1) accepted'
                    else ⟨.threw (writeFailed result.status), accepted'⟩
      else ⟨.returned bytesSent, accepted⟩

/-- `FileStreamer::stream`, of an opened file. -/
def fileStream (path : Bytes) (file : File) (fileLen : Nat)
    (socket : Nat → List WriteAnswer) : StreamRun :=
  fileStreamLoop path file fileLen socket file.reads 0 0 0 []

end CgiWebServer
