/-
How many status lines a session gets through to the client.

# Counting

A head counts once the socket has taken its status line (`isLine`). What
a write takes depends on the response, the time and the socket alone
(`writeAt`), so every step that sends has its count as an equation.

# Answers

An exception is answered by a page. `AnswerSends` lists the ways in which
that answer gets a status line through and `AnswerTwice` those in which
it gets two: a configured page that breaks off behind its own head is
followed by the default page. `answer_lines` says that these are all.
-/
import CgiWebServer.Proofs.Writing

namespace CgiWebServer

open Process

-- ============================================================== counting

/-- A head whose status line the socket has taken. -/
def isLine : Event → Bool
  | .head r accepted => (r.statusMsg ++ crlf).length ≤ accepted.length
  | _ => false

/-- The status lines the client has got. -/
def lines (s : Txn) : Nat := s.trace.countP isLine

section Writes

variable (env : Env)

/-- A response, built and written at a time. -/
def writeAt (r : Response) (time : Nat) : WriteRun :=
  coWriteAll (r.build (env.date time)).serialise (env.socket time 0)

/-- The socket takes the status line. -/
def LineSent (r : Response) (time : Nat) : Prop :=
  (r.statusMsg ++ crlf).length ≤ (writeAt env r time).accepted.length

/-- The write succeeds. -/
def Written (r : Response) (time : Nat) : Prop :=
  writeEndOf (writeAt env r time).result = .ok ()

/-- The write fails, with an exception. -/
def WriteFails (r : Response) (time : Nat) (e : Exn) : Prop :=
  writeEndOf (writeAt env r time).result = .error (.raised e)

instance (r : Response) (time : Nat) : Decidable (LineSent env r time) :=
  inferInstanceAs (Decidable (_ ≤ _))

/-- A write that succeeds has taken the status line with the rest. -/
theorem Written.lineSent {r : Response} {time : Nat}
    (h : Written env r time) : LineSent env r time := by
  unfold Written writeAt at h
  obtain ⟨k, -, haccepted, hreport⟩ := coWriteAll_accepted
    (r.build (env.date time)).serialise (env.socket time 0)
  cases hresult : (coWriteAll (r.build (env.date time)).serialise
      (env.socket time 0)).result with
  | none =>
      rw [hresult] at h
      cases h
  | some result =>
      rw [hresult] at h
      have hsuccess : isSuccessCode result.status = true := by
        unfold writeEndOf at h
        split at h
        next => cases h
        next heq =>
          cases heq
          split at h
          next hok => exact hok
          next => cases h
      have hall := (hreport result hresult).2 hsuccess
      unfold LineSent writeAt
      rw [haccepted, hall, List.take_length]
      exact (Response.statusMsg_prefix_serialise
        (r.build (env.date time))).length_le

/-- The lines of a transaction, after one more event. -/
theorem lines_append (s : Txn) (e : Event) (r : Response) :
    lines { s with response := r, trace := s.trace ++ [e] }
      = lines s + if isLine e then 1 else 0 := by
  unfold lines
  rw [List.countP_append, List.countP_singleton]

/-- A head that is written is one more line, if its line is taken. -/
theorem lines_afterHead (s : Txn) :
    lines (afterHead env s)
      = lines s + if LineSent env s.response s.time then 1 else 0 := by
  unfold afterHead
  rw [lines_append]
  congr 1
  refine if_congr ?_ rfl rfl
  exact decide_eq_true_iff

@[simp] theorem time_afterHead (s : Txn) :
    (afterHead env s).time = s.time + 1 := by
  simp [afterHead, Txn.time]

@[simp] theorem response_afterHead (s : Txn) :
    (afterHead env s).response = s.response.build (env.date s.time) := rfl

/-- The written head, at the transaction it is sent from. -/
theorem headRun_eq (s : Txn) :
    headRun env s = writeAt env s.response s.time := rfl

end Writes

-- =============================================================== answers

section Answers

variable (env : Env)

/-- The response of a configured page. -/
def pageResponse (a : Response) (fileLen : Nat) : Response :=
  a.addHeader (bytes "Content-Length") (toStr fileLen)

/-- A configured page's file can be opened, at a time. -/
def PageOpens (file : Bytes) (time fileLen : Nat) : Prop :=
  openFile file (env.file time (cStr file)) = .ok fileLen

/-- An answer's status line is taken: the default page's, also where the
configured page cannot be opened or its head fails, or the configured
page's. -/
inductive AnswerSends (a : Response) (time : Nat) : Option Bytes → Prop
  | default :
      LineSent env a time → AnswerSends a time none
  | unopened {file : Bytes} {e : Exn} :
      openFile file (env.file time (cStr file)) = .error e →
      LineSent env a (time + 1) → AnswerSends a time (some file)
  | page {file : Bytes} {fileLen : Nat} :
      PageOpens env file time fileLen →
      LineSent env (pageResponse a fileLen) (time + 1) →
      AnswerSends a time (some file)
  | headFails {file : Bytes} {fileLen : Nat} {e : Exn} :
      PageOpens env file time fileLen →
      WriteFails env (pageResponse a fileLen) (time + 1) e →
      LineSent env (pageResponse a fileLen |>.build (env.date (time + 1)))
        (time + 2) →
      AnswerSends a time (some file)

/-- Two status lines of an answer are taken: the configured page's head
is cut off or its file breaks off, and the default page follows. -/
inductive AnswerTwice (a : Response) (time : Nat) : Option Bytes → Prop
  | headCut {file : Bytes} {fileLen : Nat} {e : Exn} :
      PageOpens env file time fileLen →
      LineSent env (pageResponse a fileLen) (time + 1) →
      WriteFails env (pageResponse a fileLen) (time + 1) e →
      LineSent env (pageResponse a fileLen |>.build (env.date (time + 1)))
        (time + 2) →
      AnswerTwice a time (some file)
  | fileBreaks {file : Bytes} {fileLen : Nat} {e : Exn} :
      PageOpens env file time fileLen →
      Written env (pageResponse a fileLen) (time + 1) →
      (fileStream file (env.file time (cStr file)) fileLen
        (env.socket (time + 2))).result = .threw e →
      LineSent env (pageResponse a fileLen |>.build (env.date (time + 1)))
        (time + 3) →
      AnswerTwice a time (some file)

/-- The count of one head. -/
def lineCount (r : Response) (time : Nat) : Nat :=
  if LineSent env r time then 1 else 0

/-- The count of an answer, by what becomes of its page. -/
def answerCount (a : Response) (time : Nat) : Option Bytes → Nat
  | none => lineCount env a time
  | some file =>
      match openFile file (env.file time (cStr file)) with
      | .error _ => lineCount env a (time + 1)
      | .ok fileLen =>
          let r := pageResponse a fileLen
          let sent := r.build (env.date (time + 1))
          lineCount env r (time + 1)
            + match writeEndOf (writeAt env r (time + 1)).result with
              | .ok _ =>
                  match (fileStream file (env.file time (cStr file)) fileLen
                    (env.socket (time + 2))).result with
                  | .threw _ => lineCount env sent (time + 3)
                  | _ => 0
              | .error (.raised _) => lineCount env sent (time + 2)
              | .error _ => 0

theorem lineCount_pos {r : Response} {time : Nat} :
    1 ≤ lineCount env r time ↔ LineSent env r time := by
  unfold lineCount
  split
  next h => exact ⟨fun _ => h, fun _ => Nat.le_refl 1⟩
  next h => exact ⟨fun hle => absurd hle (by decide), fun h' => absurd h' h⟩

theorem lineCount_le (r : Response) (time : Nat) :
    lineCount env r time ≤ 1 := by
  unfold lineCount
  split <;> decide

/-- An answer sends a line exactly if its count is not zero. -/
theorem answerSends_iff (a : Response) (time : Nat)
    (page : Option Bytes) :
    AnswerSends env a time page ↔ 1 ≤ answerCount env a time page := by
  cases page with
  | none =>
      show _ ↔ 1 ≤ lineCount env a time
      rw [lineCount_pos]
      exact ⟨fun | .default h => h, .default⟩
  | some file =>
      unfold answerCount
      -- A page that cannot be opened gives way to the default one.
      cases hopen : openFile file (env.file time (cStr file)) with
      | error e =>
          simp only [hopen]
          rw [lineCount_pos]
          constructor
          · intro h
            cases h with
            | unopened _ hline => exact hline
            | page hopens => cases hopens.symm.trans hopen
            | headFails hopens => cases hopens.symm.trans hopen
          · exact .unopened hopen
      | ok fileLen =>
          simp only [hopen]
          constructor
          · intro h
            cases h with
            | unopened hfails => cases hfails.symm.trans hopen
            | page hopens hline =>
                obtain rfl := Except.ok.inj (hopens.symm.trans hopen)
                have hone := (lineCount_pos env).mpr hline
                omega
            | headFails hopens hfails hline =>
                obtain rfl := Except.ok.inj (hopens.symm.trans hopen)
                have hone := (lineCount_pos env).mpr hline
                unfold WriteFails at hfails
                rw [hfails]
                simp only
                omega
          · intro h
            by_cases hline :
                LineSent env (pageResponse a fileLen) (time + 1)
            · exact .page hopen hline
            · -- The head was not written, so it failed.
              have hzero : lineCount env (pageResponse a fileLen)
                  (time + 1) = 0 := if_neg hline
              rw [hzero, Nat.zero_add] at h
              split at h
              next hwritten =>
                exact absurd (Written.lineSent env hwritten) hline
              next e hfails =>
                exact .headFails hopen hfails ((lineCount_pos env).mp h)
              next => omega

/-- An answer sends two lines exactly if its count is two. -/
theorem answerTwice_iff (a : Response) (time : Nat)
    (page : Option Bytes) :
    AnswerTwice env a time page ↔ 2 ≤ answerCount env a time page := by
  cases page with
  | none =>
      have hle := lineCount_le env a time
      show _ ↔ 2 ≤ lineCount env a time
      refine ⟨fun h => ?_, fun h => by omega⟩
      cases h
  | some file =>
      unfold answerCount
      cases hopen : openFile file (env.file time (cStr file)) with
      | error e =>
          have hle := lineCount_le env a (time + 1)
          simp only [hopen]
          refine ⟨fun h => ?_, fun h => by omega⟩
          cases h with
          | headCut hopens => cases hopens.symm.trans hopen
          | fileBreaks hopens => cases hopens.symm.trans hopen
      | ok fileLen =>
          simp only [hopen]
          constructor
          · intro h
            cases h with
            | headCut hopens hline hfails hnext =>
                obtain rfl := Except.ok.inj (hopens.symm.trans hopen)
                have hone := (lineCount_pos env).mpr hline
                have htwo := (lineCount_pos env).mpr hnext
                unfold WriteFails at hfails
                rw [hfails]
                simp only
                omega
            | fileBreaks hopens hwritten hbreaks hnext =>
                obtain rfl := Except.ok.inj (hopens.symm.trans hopen)
                have hone := (lineCount_pos env).mpr
                  (Written.lineSent env hwritten)
                have htwo := (lineCount_pos env).mpr hnext
                unfold Written at hwritten
                rw [hwritten]
                simp only
                rw [hbreaks]
                simp only
                omega
          · intro h
            have hle := lineCount_le env (pageResponse a fileLen) (time + 1)
            -- Two lines are the page's own and that of the default page.
            split at h
            next hwritten =>
              split at h
              next e hbreaks =>
                exact .fileBreaks hopen hwritten hbreaks
                  ((lineCount_pos env).mp (by omega))
              next => omega
            next e hfails =>
              have hle' := lineCount_le env ((pageResponse a fileLen).build
                (env.date (time + 1))) (time + 2)
              exact .headCut hopen ((lineCount_pos env).mp (by omega))
                hfails ((lineCount_pos env).mp (by omega))
            next => omega

-- ============================================================== the runs

/-- An event that is no head leaves the count. -/
theorem lines_emit {e : Event} (he : isLine e = false) (s : Txn) :
    lines (emit e s) = lines s := by
  unfold emit
  rw [show lines { s with trace := s.trace ++ [e] } = _ from
    lines_append s e s.response, he]
  rfl

@[simp] theorem time_emit (e : Event) (s : Txn) :
    (emit e s).time = s.time + 1 := by
  simp [emit, Txn.time]

theorem lines_defaultErrorPage (s : Txn) :
    lines (defaultErrorPage env s).2
      = lines s + lineCount env s.response s.time := by
  rw [defaultErrorPage_apply]
  exact lines_afterHead env s

/-- A configured page is the default page once it has failed. -/
theorem configuredErrorPage_apply (file : Bytes) (s : Txn) :
    configuredErrorPage env file s
      = match serveErrorPage env file s with
        | (.ok u, s') => (.ok u, s')
        | (.error (.raised _), s') => defaultErrorPage env s'
        | (.error stop, s') => (.error stop, s') := by
  unfold configuredErrorPage Proc.recover
  cases serveErrorPage env file s with
  | mk result s' =>
      cases result with
      | ok u => rfl
      | error stop =>
          cases stop with
          | raised e => rfl
          | pending => rfl
          | crash => rfl

/-- The transaction a configured page's head is sent from. -/
def pageStart (file : Bytes) (fileLen : Nat) (s : Txn) : Txn :=
  { emit (.openedPage (cStr file)) s with
    response := pageResponse s.response fileLen }

/-- A page that was opened sends its head and its file. -/
theorem serveErrorPage_of_open {file : Bytes} {fileLen : Nat} {s : Txn}
    (hopen : openFile file (env.file s.time (cStr file)) = .ok fileLen) :
    serveErrorPage env file s
      = (streamHead env >>= fun _ =>
          streamFile env file (env.file s.time (cStr file)) fileLen)
          (pageStart file fileLen s) := by
  unfold serveErrorPage
  rw [Proc.bind_apply, openFileStreamer_apply, hopen]
  rfl

/-- A page that cannot be opened is given up. -/
theorem serveErrorPage_of_error {file : Bytes} {e : Exn} {s : Txn}
    (hopen : openFile file (env.file s.time (cStr file)) = .error e) :
    serveErrorPage env file s
      = (.error (.raised e), emit (.openedPage (cStr file)) s) := by
  unfold serveErrorPage
  rw [Proc.bind_apply, openFileStreamer_apply, hopen]

theorem lines_configuredErrorPage (file : Bytes) (s : Txn) :
    lines (configuredErrorPage env file s).2
      = lines s + answerCount env s.response s.time (some file) := by
  rw [configuredErrorPage_apply]
  unfold answerCount
  -- The page's line is counted, and the default page's behind a failure.
  cases hopen : openFile file (env.file s.time (cStr file)) with
  | error e =>
      simp only [serveErrorPage_of_error env hopen, hopen]
      rw [lines_defaultErrorPage, lines_emit rfl, time_emit, emit_response]
  | ok fileLen =>
      have hstart : lines (pageStart file fileLen s) = lines s :=
        lines_emit rfl s
      have htime : (pageStart file fileLen s).time = s.time + 1 :=
        time_emit _ s
      have hhead := lines_afterHead env (pageStart file fileLen s)
      rw [hstart, htime] at hhead
      have hwrite : streamHead env (pageStart file fileLen s)
          = (writeEndOf (writeAt env (pageResponse s.response fileLen)
              (s.time + 1)).result, afterHead env (pageStart file fileLen s)) := by
        rw [streamHead_apply, headRun_eq, htime]
        rfl
      cases hend : writeEndOf (writeAt env
          (pageResponse s.response fileLen) (s.time + 1)).result with
      | error stop =>
          rw [hend] at hwrite
          have hserve := serveErrorPage_of_open env hopen
          rw [Proc.bind_of_error hwrite] at hserve
          rw [hserve]
          simp only [hopen, hend]
          cases stop with
          | raised e =>
              simp only
              rw [lines_defaultErrorPage, hhead, time_afterHead, htime,
                response_afterHead, htime, Nat.add_assoc]
              rfl
          | pending => exact hhead
          | crash => exact hhead
      | ok u =>
          rw [hend] at hwrite
          have hserve := serveErrorPage_of_open env hopen
          rw [Proc.bind_of_ok hwrite, streamFile_apply, time_afterHead,
            htime] at hserve
          rw [hserve]
          simp only [hopen, hend]
          cases hstream : (fileStream file (env.file s.time (cStr file))
              fileLen (env.socket (s.time + 2))).result with
          | threw e =>
              simp only [streamEndOf]
              rw [lines_defaultErrorPage, lines_emit rfl, hhead, time_emit,
                time_afterHead, htime, emit_response, response_afterHead,
                htime, Nat.add_assoc]
              rfl
          | returned n =>
              simp only [streamEndOf]
              rw [lines_emit rfl, hhead]
              rfl
          | pending =>
              simp only [streamEndOf]
              rw [lines_emit rfl, hhead]
              rfl

/-- The count of an answer is what its run adds. -/
theorem lines_answerError (e : Exn) (s : Txn) :
    lines (answerError env e s).2
      = lines s + answerCount env (errorResponse e) s.time
          (s.router.getErrorPage (errorResponse e).status) := by
  show lines (errorPage env
    (s.router.getErrorPage (errorResponse e).status)
    { s with response := errorResponse e }).2 = _
  cases s.router.getErrorPage (errorResponse e).status with
  | none => exact lines_defaultErrorPage env _
  | some file => exact lines_configuredErrorPage env file _

end Answers

end CgiWebServer
