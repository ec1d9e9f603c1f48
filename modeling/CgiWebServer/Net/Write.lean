/-
Socket writes: asio's error codes, the contract of one `async_write`,
and `co_write_all` (http.h, http.cpp, Socket.h).

# The socket

A socket is the list of answers it will give, one for each `async_write`.
An answer is an error code and the number of bytes it took; asio's
contract (no more than was asked for, and all of it when there is no
error) is `WriteAnswer.taken`, so that every list of answers is a
behaviour asio allows, and every behaviour it allows is one of them
(`taken_of_contract`). A list that runs out is a write that has not
completed: the run is then where it stands, with no status yet.

# The loop

`coWriteAll` recurses on the answers, one turn of the source's `while`
for each. Beside the status it returns, a run carries the bytes the
socket has accepted, which the server never sees;
`coWriteAll_accepted` says that they are at every point a prefix of the
buffer, and all of it whenever the status is a success.
-/
import CgiWebServer.Http.Basic

namespace CgiWebServer

-- ======================================================= error codes

/-- `asio::error_code`: no error, the codes the source names, and every
other one by its value. -/
inductive ErrorCode
  | ok
  | connectionReset
  | brokenPipe
  | eof
  | badDescriptor
  | addressInUse
  | accessDenied
  | wouldBlock
  | tryAgain
  | networkUnreachable
  | hostUnreachable
  | connectionRefused
  | timedOut
  | noBufferSpace
  | other (value : Int)
  deriving DecidableEq, Repr

/-- `is_client_disconnect`. -/
def isClientDisconnect (ec : ErrorCode) : Bool :=
  ec == .connectionReset || ec == .brokenPipe || ec == .eof

/-- `is_permanent_failure`. -/
def isPermanentFailure (ec : ErrorCode) : Bool :=
  ec == .badDescriptor || ec == .addressInUse

/-- `is_retryable`. -/
def isRetryable (ec : ErrorCode) : Bool :=
  ec == .wouldBlock || ec == .tryAgain || ec == .networkUnreachable
    || ec == .hostUnreachable || ec == .connectionRefused
    || ec == .timedOut || ec == .noBufferSpace

/-- `error_to_status`. -/
def errorToStatus (ec : ErrorCode) : Code :=
  if ec = .ok then .ok
  else if isClientDisconnect ec then .clientClosedRequest
  else if ec = .accessDenied then .forbidden
  else if isPermanentFailure ec then .internalServerError
  else if ec = .noBufferSpace then .insufficientStorage
  else if ec = .timedOut then .gatewayTimeout
  else .serviceUnavailable

/-- Only the absence of an error is a success. -/
theorem isSuccessCode_errorToStatus (ec : ErrorCode) :
    isSuccessCode (errorToStatus ec) = true ↔ ec = .ok := by
  cases ec with
  | other value =>
      have hstatus : errorToStatus (.other value) = .serviceUnavailable := rfl
      rw [hstatus]
      constructor
      · intro h
        exact absurd h (by decide)
      · intro h
        cases h
  | _ => decide

-- ========================================================= one write

/-- How the socket answers one `async_write`: its error code and, when
there is an error, the most bytes it took before failing. -/
structure WriteAnswer where
  ec : ErrorCode
  n : Nat
  deriving DecidableEq, Repr

namespace WriteAnswer

/-- The bytes taken of a request of a given size. -/
def taken (a : WriteAnswer) (requested : Nat) : Nat :=
  if a.ec = .ok then requested else min a.n requested

theorem taken_le (a : WriteAnswer) (requested : Nat) :
    a.taken requested ≤ requested := by
  unfold taken
  split
  · exact Nat.le_refl _
  · exact Nat.min_le_right _ _

theorem taken_ok {a : WriteAnswer} (h : a.ec = .ok) (requested : Nat) :
    a.taken requested = requested := if_pos h

/-- A result that keeps asio's contract is an answer of this kind. -/
theorem taken_of_contract {ec : ErrorCode} {n requested : Nat}
    (hle : n ≤ requested) (hfull : ec = .ok → n = requested) :
    (WriteAnswer.mk ec n).taken requested = n := by
  unfold taken
  split
  next hok => exact (hfull hok).symm
  next => exact Nat.min_eq_left hle

end WriteAnswer

-- ====================================================== co_write_all

/-- `TransferState`, less its unused `current_offset`. -/
structure TransferState where
  totalBytes : Nat
  bytesSent : Nat := 0
  retryCount : Nat := 1
  deriving DecidableEq, Repr

/-- `TransferState::MAX_RETRIES`. -/
def maxRetries : Nat := 3

/-- `http::io::WriteStatus`, less the message, whose text is asio's. -/
structure WriteStatus where
  status : Code
  bytes : Nat
  deriving DecidableEq, Repr

/-- A run of `co_write_all`: what it returned, if it has, and the bytes
the socket accepted so far. -/
structure WriteRun where
  result : Option WriteStatus
  accepted : Bytes
  deriving DecidableEq

/-- The number of bytes the next `co_write` asks for. -/
def TransferState.requested (st : TransferState) : Nat :=
  st.totalBytes - st.bytesSent

/-- The body of the `while` after its `co_write` is answered: return, or
go round with the next state. The return comes before the write's bytes
are counted, and does not ask whether the write failed. -/
def writeTurn (st : TransferState) (a : WriteAnswer) :
    Except WriteStatus TransferState :=
  if isPermanentFailure a.ec || st.retryCount > maxRetries then
    .error { status := errorToStatus a.ec, bytes := st.bytesSent }
  else
    .ok { st with
      bytesSent := st.bytesSent + a.taken st.requested
      retryCount :=
        if isRetryable a.ec then st.retryCount + 1 else st.retryCount }

/-- What follows the `while`. -/
def writeEnd (st : TransferState) : WriteStatus :=
  if st.bytesSent ≠ st.totalBytes then
    { status := .internalServerError, bytes := st.bytesSent }
  else { status := .ok, bytes := st.bytesSent }

/-- The `while` of `co_write_all`, one answer a turn. -/
def writeLoop (buffer : Bytes) :
    List WriteAnswer → TransferState → Bytes → WriteRun
  | [], st, accepted =>
      if st.bytesSent < st.totalBytes then ⟨none, accepted⟩
      else ⟨some (writeEnd st), accepted⟩
  | a :: answers, st, accepted =>
      if st.bytesSent < st.totalBytes then
        let accepted' := accepted
          ++ (buffer.drop st.bytesSent).take (a.taken st.requested)
        match writeTurn st a with
        | .error result => ⟨some result, accepted'⟩
        | .ok st' => writeLoop buffer answers st' accepted'
      else ⟨some (writeEnd st), accepted⟩

/-- `co_write_all`. -/
def coWriteAll (buffer : Bytes) (answers : List WriteAnswer) : WriteRun :=
  writeLoop buffer answers { totalBytes := buffer.length } []

-- =================================================== the accepted bytes

/-- What a turn that goes round leaves behind. -/
theorem writeTurn_ok {st st' : TransferState} {a : WriteAnswer}
    (h : writeTurn st a = .ok st') :
    isPermanentFailure a.ec = false ∧ st.retryCount ≤ maxRetries
      ∧ st'.totalBytes = st.totalBytes
      ∧ st'.bytesSent = st.bytesSent + a.taken st.requested
      ∧ st'.retryCount
          = if isRetryable a.ec then st.retryCount + 1
            else st.retryCount := by
  unfold writeTurn at h
  split at h
  next => cases h
  next hcond =>
    cases h
    simp only [Bool.or_eq_true, decide_eq_true_eq, not_or,
      Bool.not_eq_true, Nat.not_lt] at hcond
    exact ⟨hcond.1, hcond.2, rfl, rfl, rfl⟩

/-- What a turn that returns says. -/
theorem writeTurn_error {st : TransferState} {a : WriteAnswer}
    {result : WriteStatus} (h : writeTurn st a = .error result) :
    (isPermanentFailure a.ec = true ∨ maxRetries < st.retryCount)
      ∧ result = { status := errorToStatus a.ec, bytes := st.bytesSent } := by
  unfold writeTurn at h
  split at h
  next hcond =>
    cases h
    simp only [Bool.or_eq_true, decide_eq_true_eq] at hcond
    exact ⟨hcond, rfl⟩
  next => cases h

/-- Extending a prefix of the buffer by the next bytes of it. -/
private theorem take_append_take_drop (buffer : Bytes) (i k : Nat) :
    buffer.take i ++ (buffer.drop i).take k = buffer.take (i + k) :=
  (List.take_add ..).symm

/-- The loop's run, from any state that counts exactly the prefix the
socket has accepted: the accepted bytes stay a prefix, the byte count it
returns never exceeds them, and a success has sent the whole buffer. -/
theorem writeLoop_accepted (buffer : Bytes) :
    ∀ (answers : List WriteAnswer) (st : TransferState),
      st.totalBytes = buffer.length → st.bytesSent ≤ buffer.length →
      ∃ k ≤ buffer.length, st.bytesSent ≤ k
        ∧ (writeLoop buffer answers st (buffer.take st.bytesSent)).accepted
            = buffer.take k
        ∧ ∀ result,
            (writeLoop buffer answers st
              (buffer.take st.bytesSent)).result = some result →
            result.bytes ≤ k
              ∧ (isSuccessCode result.status = true → k = buffer.length) := by
  intro answers
  -- What is accepted stays the prefix of length `bytesSent`.
  induction answers with
  | nil =>
      intro st htotal hsent
      refine ⟨st.bytesSent, hsent, Nat.le_refl _, ?_, fun result hres => ?_⟩
      · unfold writeLoop
        split <;> rfl
      · unfold writeLoop at hres
        split at hres
        next => cases hres
        next hdone =>
          cases hres
          have heq : st.bytesSent = buffer.length := by omega
          unfold writeEnd
          split
          next hne => exact absurd (heq.trans htotal.symm) hne
          next => exact ⟨Nat.le_refl _, fun _ => heq⟩
  | cons a answers ih =>
      intro st htotal hsent
      unfold writeLoop
      split
      next hlt =>
        have htaken := a.taken_le st.requested
        have hreq : st.requested = buffer.length - st.bytesSent := by
          rw [TransferState.requested, htotal]
        have hle : st.bytesSent + a.taken st.requested ≤ buffer.length := by
          omega
        simp only [take_append_take_drop]
        -- The bytes taken are accepted also where the turn leaves the loop,
        -- so its report may be of fewer.
        cases hturn : writeTurn st a with
        | error result =>
            obtain ⟨-, hres⟩ := writeTurn_error hturn
            refine ⟨_, hle, Nat.le_add_right _ _, rfl, fun r hr => ?_⟩
            cases hr
            rw [hres]
            refine ⟨Nat.le_add_right _ _, fun hsucc => ?_⟩
            have hok := (isSuccessCode_errorToStatus a.ec).mp hsucc
            rw [WriteAnswer.taken_ok hok]
            omega
        | ok st' =>
            obtain ⟨-, -, htot', hsent', -⟩ := writeTurn_ok hturn
            obtain ⟨k, hk, hsk, hacc, hres⟩ := ih st'
              (htot'.trans htotal) (by rw [hsent']; exact hle)
            rw [hsent'] at hsk hacc hres
            exact ⟨k, hk, by omega, hacc, hres⟩
      next hdone =>
        have heq : st.bytesSent = buffer.length := by omega
        refine ⟨st.bytesSent, hsent, Nat.le_refl _, rfl, fun result hres => ?_⟩
        cases hres
        unfold writeEnd
        split
        next hne => exact absurd (heq.trans htotal.symm) hne
        next => exact ⟨Nat.le_refl _, fun _ => heq⟩

/-- `co_write_all` gives the socket a prefix of the buffer, reports no
more bytes than the socket accepted, and reports a success only when the
socket accepted them all. -/
theorem coWriteAll_accepted (buffer : Bytes) (answers : List WriteAnswer) :
    ∃ k ≤ buffer.length,
      (coWriteAll buffer answers).accepted = buffer.take k
        ∧ ∀ result, (coWriteAll buffer answers).result = some result →
            result.bytes ≤ k
              ∧ (isSuccessCode result.status = true → k = buffer.length) := by
  obtain ⟨k, hk, -, hacc, hres⟩ := writeLoop_accepted buffer answers
    { totalBytes := buffer.length } rfl (Nat.zero_le _)
  exact ⟨k, hk, hacc, hres⟩

/-- A first answer without an error takes the whole buffer and ends the
write well. -/
theorem coWriteAll_of_ok (buffer : Bytes) (n : Nat)
    (answers : List WriteAnswer) :
    (coWriteAll buffer (⟨.ok, n⟩ :: answers)).result
        = some { status := .ok, bytes := buffer.length }
      ∧ (coWriteAll buffer (⟨.ok, n⟩ :: answers)).accepted = buffer := by
  have hresult : (coWriteAll buffer (⟨.ok, n⟩ :: answers)).result
      = some { status := .ok, bytes := buffer.length } := by
    unfold coWriteAll
    cases buffer with
    | nil => rfl
    | cons b rest =>
        have hlt : (0 : Nat) < (b :: rest).length := Nat.zero_lt_succ _
        have htaken := WriteAnswer.taken_ok (a := ⟨.ok, n⟩) rfl
          (b :: rest).length
        simp only [writeLoop, writeTurn, TransferState.requested, hlt,
          if_true, Nat.sub_zero, htaken, isPermanentFailure, isRetryable]
        cases answers <;> simp [writeLoop, writeEnd, maxRetries]
  obtain ⟨k, -, haccepted, hreport⟩ :=
    coWriteAll_accepted buffer (⟨.ok, n⟩ :: answers)
  refine ⟨hresult, ?_⟩
  rw [haccepted, (hreport _ hresult).2 rfl, List.take_length]

theorem coWriteAll_ok (buffer : Bytes) :
    (coWriteAll buffer [{ ec := .ok, n := 0 }]).result
        = some { status := .ok, bytes := buffer.length }
      ∧ (coWriteAll buffer [{ ec := .ok, n := 0 }]).accepted = buffer :=
  coWriteAll_of_ok buffer 0 []

end CgiWebServer
