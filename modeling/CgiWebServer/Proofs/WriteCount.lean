/-
Whether `co_write_all` counts right.

The loop adds a write's bytes to its count behind the test that makes it
return, and the test does not ask whether the write succeeded. So the
count is that of the accepted bytes unless the loop leaves from inside,
and then it lacks the bytes of the answer it leaves at: none if that
answer is an error that took none, some if it took any, and all that was
missing if it is a success that comes when the retries are spent.
`LeavesEarly` says of the answers alone which one that is.
-/
import Mathlib.Algebra.GroupWithZero.Nat
import CgiWebServer.Net.Write

namespace CgiWebServer

/-- A report is right: it counts the accepted bytes, and says `OK` of a
whole buffer only. -/
structure Exact (buffer accepted : Bytes) (result : WriteStatus) : Prop where
  counts : result.bytes = accepted.length
  whole : result.status = .ok → result.bytes = buffer.length

/-- The loop, from a state on, leaves from inside at an answer that
comes behind some others: these are errors, none of them permanent, that
leave retries and bytes to be sent, and the answer is a permanent failure
or comes when the retries are spent. -/
structure LeavesEarly (st : TransferState) (before : List WriteAnswer)
    (a : WriteAnswer) : Prop where
  errors : ∀ b ∈ before, b.ec ≠ .ok ∧ isPermanentFailure b.ec = false
  unspent : before ≠ [] → st.retryCount
    + before.dropLast.countP (fun b => isRetryable b.ec) ≤ maxRetries
  short : st.bytesSent + (before.map WriteAnswer.n).sum < st.totalBytes
  leaves : isPermanentFailure a.ec = true
    ∨ maxRetries < st.retryCount + before.countP fun b => isRetryable b.ec

variable {st st' : TransferState} {a x : WriteAnswer}
  {before : List WriteAnswer}

-- ============================================================ one turn

/-- A turn that goes round hands what comes behind it to the next
state. -/
theorem leavesEarly_cons (hturn : writeTurn st a = .ok st')
    (hlt : st.bytesSent < st.totalBytes) :
    LeavesEarly st (a :: before) x ↔ LeavesEarly st' before x := by
  obtain ⟨hperm, hretry, htotal, hsent, hretry'⟩ := writeTurn_ok hturn
  by_cases hok : a.ec = .ok
  · -- A success sends the rest: nothing is left to leave early from.
    rw [WriteAnswer.taken_ok hok, TransferState.requested] at hsent
    constructor
    · intro h
      exact absurd hok (h.errors a List.mem_cons_self).1
    · intro h
      have := h.short
      omega
  · rw [WriteAnswer.taken, if_neg hok, TransferState.requested] at hsent
    have hcount : ∀ l : List WriteAnswer,
        st.retryCount + (a :: l).countP (fun b => isRetryable b.ec)
          = st'.retryCount + l.countP fun b => isRetryable b.ec := by
      intro l
      rw [List.countP_cons, hretry']
      split <;> omega
    have hunspent : (a :: before ≠ [] → st.retryCount
          + (a :: before).dropLast.countP (fun b => isRetryable b.ec)
            ≤ maxRetries)
        ↔ (before ≠ [] → st'.retryCount
          + before.dropLast.countP (fun b => isRetryable b.ec)
            ≤ maxRetries) := by
      cases before with
      | nil =>
          exact iff_of_true (fun _ => by simpa using hretry)
            (fun h => absurd rfl h)
      | cons b rest =>
          rw [List.dropLast_cons_of_ne_nil (List.cons_ne_nil b rest), hcount]
          simp
    have hshort : st.bytesSent + ((a :: before).map WriteAnswer.n).sum
          < st.totalBytes
        ↔ st'.bytesSent + (before.map WriteAnswer.n).sum
          < st'.totalBytes := by
      rw [List.map_cons, List.sum_cons]
      omega
    constructor
    · intro h
      exact ⟨fun b hb => h.errors b (List.mem_cons_of_mem _ hb),
        hunspent.mp h.unspent, hshort.mp h.short, hcount _ ▸ h.leaves⟩
    · intro h
      refine ⟨fun b hb => ?_, hunspent.mpr h.unspent, hshort.mpr h.short,
        (hcount _).symm ▸ h.leaves⟩
      rcases List.mem_cons.mp hb with rfl | hb
      · exact ⟨hok, hperm⟩
      · exact h.errors b hb

/-- A turn that returns is left at its answer. -/
theorem leavesEarly_of_error {result : WriteStatus}
    (hturn : writeTurn st a = .error result)
    (hlt : st.bytesSent < st.totalBytes) : LeavesEarly st [] a where
  errors _ hb := absurd hb List.not_mem_nil
  unspent h := absurd rfl h
  short := hlt
  leaves := (writeTurn_error hturn).1

/-- It is left at no later one. -/
theorem not_leavesEarly_of_error {result : WriteStatus}
    (hturn : writeTurn st a = .error result) :
    ¬ LeavesEarly st (a :: before) x := by
  intro h
  obtain ⟨hleaves, -⟩ := writeTurn_error hturn
  rcases hleaves with hperm | hspent
  · rw [(h.errors a List.mem_cons_self).2] at hperm
    cases hperm
  · have := h.unspent (List.cons_ne_nil a before)
    omega

/-- A turn that goes round is not left at its answer. -/
theorem not_leavesEarly_nil (hturn : writeTurn st a = .ok st') :
    ¬ LeavesEarly st [] a := by
  intro h
  obtain ⟨hperm, hretry, -⟩ := writeTurn_ok hturn
  rcases h.leaves with h | h
  · rw [hperm] at h
    cases h
  · rw [List.countP_nil] at h
    omega

/-- The report of an early return is right exactly if its answer took
nothing. -/
theorem exact_of_error {buffer accepted : Bytes} {result : WriteStatus}
    (htotal : st.totalBytes = buffer.length)
    (hlt : st.bytesSent < st.totalBytes)
    (haccepted : accepted.length = st.bytesSent)
    (hturn : writeTurn st a = .error result) :
    Exact buffer (accepted
        ++ (buffer.drop st.bytesSent).take (a.taken st.requested)) result
      ↔ a.ec ≠ .ok ∧ a.n = 0 := by
  obtain ⟨-, rfl⟩ := writeTurn_error hturn
  have hreq : st.requested = buffer.length - st.bytesSent := by
    rw [TransferState.requested, htotal]
  have hlen : (accepted
      ++ (buffer.drop st.bytesSent).take (a.taken st.requested)).length
        = st.bytesSent + a.taken st.requested := by
    have hle := a.taken_le st.requested
    rw [List.length_append, List.length_take, List.length_drop, haccepted]
    omega
  -- The exit reports what had been counted before the answer; it is exact
  -- where the answer brought nothing.
  constructor
  · intro h
    have hcount : st.bytesSent = st.bytesSent + a.taken st.requested :=
      h.counts.trans hlen
    have hzero : a.taken st.requested = 0 := by omega
    have hok : a.ec ≠ .ok := by
      intro hok
      rw [WriteAnswer.taken_ok hok] at hzero
      omega
    rw [WriteAnswer.taken, if_neg hok] at hzero
    exact ⟨hok, by omega⟩
  · intro h
    obtain ⟨hok, hn⟩ := h
    have hzero : a.taken st.requested = 0 := by
      rw [WriteAnswer.taken, if_neg hok, hn, Nat.zero_min]
    refine ⟨by rw [hlen, hzero, Nat.add_zero], fun hstatus => ?_⟩
    have hsucc : isSuccessCode (errorToStatus a.ec) = true := by
      rw [show errorToStatus a.ec = .ok from hstatus]
      rfl
    exact absurd ((isSuccessCode_errorToStatus a.ec).mp hsucc) hok

/-- The report behind the loop is right. -/
theorem exact_writeEnd {buffer accepted : Bytes}
    (htotal : st.totalBytes = buffer.length)
    (hdone : ¬ st.bytesSent < st.totalBytes)
    (hle : st.bytesSent ≤ buffer.length)
    (haccepted : accepted.length = st.bytesSent) :
    Exact buffer accepted (writeEnd st) := by
  have heq : st.bytesSent = st.totalBytes := by omega
  rw [writeEnd, if_neg (not_not_intro heq)]
  exact ⟨haccepted.symm, fun _ => heq.trans htotal⟩

-- ============================================================= the loop

/-- No early return takes a byte. -/
def NoneLost (st : TransferState) (answers : List WriteAnswer) : Prop :=
  ∀ before a after, answers = before ++ a :: after →
    LeavesEarly st before a → a.ec ≠ .ok ∧ a.n = 0

/-- A finished loop has nothing to leave. -/
theorem noneLost_of_done (hdone : ¬ st.bytesSent < st.totalBytes)
    (answers : List WriteAnswer) : NoneLost st answers := by
  intro before a after _ h
  have := h.short
  omega

/-- A turn that returns is the one to look at. -/
theorem noneLost_of_error {result : WriteStatus}
    {answers : List WriteAnswer} (hturn : writeTurn st a = .error result)
    (hlt : st.bytesSent < st.totalBytes) :
    NoneLost st (a :: answers) ↔ a.ec ≠ .ok ∧ a.n = 0 := by
  constructor
  · intro h
    exact h [] a answers rfl (leavesEarly_of_error hturn hlt)
  · intro h before x after hsplit hleaves
    cases before with
    | nil =>
        cases hsplit
        exact h
    | cons b before =>
        cases hsplit
        exact absurd hleaves (not_leavesEarly_of_error hturn)

/-- A turn that goes round leaves it to the next. -/
theorem noneLost_of_ok {answers : List WriteAnswer}
    (hturn : writeTurn st a = .ok st')
    (hlt : st.bytesSent < st.totalBytes) :
    NoneLost st (a :: answers) ↔ NoneLost st' answers := by
  constructor
  · intro h before x after hsplit hleaves
    exact h (a :: before) x after (hsplit ▸ rfl)
      ((leavesEarly_cons hturn hlt).mpr hleaves)
  · intro h before x after hsplit hleaves
    cases before with
    | nil =>
        cases hsplit
        exact absurd hleaves (not_leavesEarly_nil hturn)
    | cons b before =>
        cases hsplit
        exact h before x after rfl ((leavesEarly_cons hturn hlt).mp hleaves)

/-- The loop's report, from any state that counts the bytes accepted so
far. -/
theorem writeLoop_exact_iff (buffer : Bytes) :
    ∀ (answers : List WriteAnswer) (st : TransferState) (accepted : Bytes),
      st.totalBytes = buffer.length → st.bytesSent ≤ buffer.length →
      accepted.length = st.bytesSent →
      ∀ result, (writeLoop buffer answers st accepted).result = some result →
        (Exact buffer (writeLoop buffer answers st accepted).accepted result
          ↔ NoneLost st answers) := by
  intro answers
  induction answers with
  | nil =>
      intro st accepted htotal hle haccepted result hres
      unfold writeLoop at hres ⊢
      split at hres
      next => cases hres
      next hdone =>
        cases hres
        -- A loop that ends by itself has counted every byte.
        rw [if_neg hdone]
        exact iff_of_true (exact_writeEnd htotal hdone hle haccepted)
          (noneLost_of_done hdone [])
  | cons a answers ih =>
      intro st accepted htotal hle haccepted result hres
      unfold writeLoop at hres ⊢
      split at hres
      next hlt =>
        rw [if_pos hlt]
        -- A turn that leaves the loop drops the bytes of its own answer.
        cases hturn : writeTurn st a with
        | error early =>
            rw [hturn] at hres
            cases hres
            exact (exact_of_error htotal hlt haccepted hturn).trans
              (noneLost_of_error hturn hlt).symm
        | ok st' =>
            rw [hturn] at hres
            obtain ⟨-, -, htotal', hsent', -⟩ := writeTurn_ok hturn
            have htaken := a.taken_le st.requested
            have hreq : st.requested = buffer.length - st.bytesSent := by
              rw [TransferState.requested, htotal]
            have haccepted' : (accepted ++ (buffer.drop st.bytesSent).take
                (a.taken st.requested)).length = st'.bytesSent := by
              rw [List.length_append, List.length_take, List.length_drop,
                haccepted, hsent']
              omega
            exact (ih st' _ (htotal'.trans htotal) (by omega) haccepted'
              result hres).trans (noneLost_of_ok hturn hlt).symm
      next hdone =>
        cases hres
        rw [if_neg hdone]
        exact iff_of_true (exact_writeEnd htotal hdone hle haccepted)
          (noneLost_of_done hdone _)

/-- A report of `co_write_all` is right exactly if the answer it leaves
the loop early at, if there is one, is an error that took no bytes. -/
theorem coWriteAll_exact_iff (buffer : Bytes) (answers : List WriteAnswer)
    (result : WriteStatus)
    (hret : (coWriteAll buffer answers).result = some result) :
    Exact buffer (coWriteAll buffer answers).accepted result
      ↔ ∀ before a after, answers = before ++ a :: after →
          LeavesEarly { totalBytes := buffer.length } before a →
          a.ec ≠ .ok ∧ a.n = 0 :=
  writeLoop_exact_iff buffer answers { totalBytes := buffer.length } [] rfl
    (Nat.zero_le _) rfl result hret

/-- One byte is taken, and then the descriptor is gone: the loop is left
early, at an error. -/
def goneAway : List WriteAnswer := [⟨.wouldBlock, 1⟩, ⟨.badDescriptor, 0⟩]

/-- The one byte is reported. -/
theorem coWriteAll_exact_gone :
    (coWriteAll (bytes "ok") goneAway).result = some ⟨.internalServerError, 1⟩
      ∧ Exact (bytes "ok") (coWriteAll (bytes "ok") goneAway).accepted
          ⟨.internalServerError, 1⟩ := by
  refine ⟨rfl, (coWriteAll_exact_iff _ _ _ rfl).mpr ?_⟩
  intro before a after hsplit hearly
  rcases List.append_eq_cons_iff.mp hsplit.symm with ⟨rfl, hfirst⟩
    | ⟨before', rfl, hrest⟩
  · cases hfirst
    exact absurd hearly.leaves (by decide)
  · rcases List.append_eq_cons_iff.mp hrest.symm with ⟨rfl, hlast⟩
      | ⟨_, rfl, hnone⟩
    · cases hlast
      exact ⟨by decide, rfl⟩
    · simp at hnone

/-- Three retryable errors and a success: the buffer is sent, and the
report says `OK` and no byte. -/
def lateSuccess : List WriteAnswer :=
  [⟨.wouldBlock, 0⟩, ⟨.wouldBlock, 0⟩, ⟨.wouldBlock, 0⟩, ⟨.ok, 0⟩]

theorem late_success_not_counted :
    (coWriteAll (bytes "ok") lateSuccess).result = some ⟨.ok, 0⟩
      ∧ (coWriteAll (bytes "ok") lateSuccess).accepted = bytes "ok"
      ∧ ¬ Exact (bytes "ok") (coWriteAll (bytes "ok") lateSuccess).accepted
          ⟨.ok, 0⟩ := by
  refine ⟨rfl, rfl, fun h => ?_⟩
  exact absurd h.counts (by decide)

end CgiWebServer
