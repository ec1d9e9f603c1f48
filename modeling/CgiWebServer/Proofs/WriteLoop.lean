/-
When `co_write_all` ends, and when each of its turns gets somewhere.

# The two questions

Against an infinite sequence of socket answers the loop returns after
finitely many writes or never (`Returns`); a turn it makes returns, or
sends a byte, or spends a retry, or does none of these (`Advances`).

# The answer

Both are decided by the answers alone. `Settled total f k` says that the
first `k` answers hold a reason to stop: an empty buffer, an answer
without error, a permanent failure, `MAX_RETRIES` retryable errors, or
byte counts that add up to the buffer. As long as there is none the
loop's state is a sum over the answers (`turns_of_not_settled`), and a
loop that is still running has met none but spent retries
(`state_of_turns`); the two theorems at the end read the exact condition
off these two facts.

A zero-byte error outside the permanent and the retryable class is no
reason to stop and no progress. The client disconnects
(`connection_reset`, `broken_pipe`, `eof`) are such errors:
`disconnect_never_returns`.
-/
import Mathlib.Algebra.BigOperators.Group.List.Basic
import Mathlib.Algebra.GroupWithZero.Nat
import CgiWebServer.Net.Write

namespace CgiWebServer

-- ==================================================== the two questions

/-- The first `k` answers of an infinite sequence. -/
def firstAnswers (f : Nat → WriteAnswer) (k : Nat) : List WriteAnswer :=
  (List.range k).map f

/-- `co_write_all` returns after finitely many writes. -/
def Returns (buffer : Bytes) (f : Nat → WriteAnswer) : Prop :=
  ∃ k, (coWriteAll buffer (firstAnswers f k)).result.isSome = true

/-- The state behind a stretch of answers that the loop consumes without
returning and without leaving the `while`. -/
def turns : List WriteAnswer → TransferState → Option TransferState
  | [], st => some st
  | a :: answers, st =>
      if st.bytesSent < st.totalBytes then
        match writeTurn st a with
        | .error _ => none
        | .ok st' => turns answers st'
      else none

/-- One turn makes progress, consumes a retry, or returns. -/
def Advances (st : TransferState) (a : WriteAnswer) : Prop :=
  match writeTurn st a with
  | .error _ => True
  | .ok st' => st.bytesSent < st'.bytesSent ∨ st.retryCount < st'.retryCount

/-- Every turn the loop makes on the sequence advances. -/
def EveryTurnAdvances (total : Nat) (f : Nat → WriteAnswer) : Prop :=
  ∀ k st, turns (firstAnswers f k) { totalBytes := total } = some st →
    st.bytesSent < st.totalBytes → Advances st (f k)

-- ========================================================== the answer

/-- The retryable errors among the first `k` answers. -/
def retries (f : Nat → WriteAnswer) (k : Nat) : Nat :=
  (firstAnswers f k).countP fun a => isRetryable a.ec

/-- The byte counts of the first `k` answers, added up. -/
def took (f : Nat → WriteAnswer) (k : Nat) : Nat :=
  ((firstAnswers f k).map WriteAnswer.n).sum

/-- The first `k` answers hold a reason to stop. -/
def Settled (total : Nat) (f : Nat → WriteAnswer) (k : Nat) : Prop :=
  total = 0
    ∨ (∃ j < k, (f j).ec = .ok ∨ isPermanentFailure (f j).ec = true)
    ∨ maxRetries ≤ retries f k
    ∨ total ≤ took f k

/-- An answer that is no progress, no retry and no reason to return. -/
def Stalled (a : WriteAnswer) : Prop :=
  a.n = 0 ∧ a.ec ≠ .ok ∧ isPermanentFailure a.ec = false
    ∧ isRetryable a.ec = false

theorem firstAnswers_succ (f : Nat → WriteAnswer) (k : Nat) :
    firstAnswers f (k + 1) = firstAnswers f k ++ [f k] := by
  rw [firstAnswers, List.range_succ, List.map_append]
  rfl

theorem retries_succ (f : Nat → WriteAnswer) (k : Nat) :
    retries f (k + 1)
      = if isRetryable (f k).ec then retries f k + 1 else retries f k := by
  rw [retries, firstAnswers_succ, List.countP_append,
    List.countP_singleton]
  split <;> rfl

theorem took_succ (f : Nat → WriteAnswer) (k : Nat) :
    took f (k + 1) = took f k + (f k).n := by
  rw [took, firstAnswers_succ, List.map_append, List.sum_append]
  simp [took]

/-- A reason to stop stays one. -/
theorem Settled.succ {total : Nat} {f : Nat → WriteAnswer} {k : Nat}
    (h : Settled total f k) : Settled total f (k + 1) := by
  rcases h with h | ⟨j, hj, h⟩ | h | h
  · exact Or.inl h
  · exact Or.inr (Or.inl ⟨j, Nat.lt_succ_of_lt hj, h⟩)
  · refine Or.inr (Or.inr (Or.inl ?_))
    rw [retries_succ]
    split <;> omega
  · refine Or.inr (Or.inr (Or.inr ?_))
    rw [took_succ]
    omega

-- =============================================== the state of the loop

/-- One more answer is one more turn. -/
theorem turns_snoc (answers : List WriteAnswer) (a : WriteAnswer) :
    ∀ st, turns (answers ++ [a]) st = (turns answers st).bind (turns [a]) := by
  induction answers with
  | nil =>
      intro st
      rfl
  | cons b answers ih =>
      intro st
      simp only [List.cons_append, turns]
      split
      next =>
        cases writeTurn st b with
        | error result => rfl
        | ok st' => exact ih st'
      next => rfl

/-- A run without status is one whose turns all went round and whose
loop condition still holds. -/
theorem writeLoop_result_eq_none (buffer : Bytes)
    (answers : List WriteAnswer) :
    ∀ (st : TransferState) (accepted : Bytes),
      (writeLoop buffer answers st accepted).result = none
        ↔ ∃ st', turns answers st = some st'
            ∧ st'.bytesSent < st'.totalBytes := by
  induction answers with
  | nil =>
      intro st accepted
      unfold writeLoop
      -- Without answers the run waits exactly where something is left to
      -- send.
      split
      next hlt =>
        constructor
        · intro _
          exact ⟨st, rfl, hlt⟩
        · intro _
          rfl
      next hge =>
        constructor
        · intro h
          cases h
        · intro h
          obtain ⟨st', hst, hlt⟩ := h
          cases hst
          exact absurd hlt hge
  | cons a answers ih =>
      intro st accepted
      unfold writeLoop turns
      split
      next =>
        cases writeTurn st a with
        | error result => simp
        | ok st' => exact ih st' _
      next => simp

/-- As long as there is no reason to stop, the state is a sum over the
answers. -/
theorem turns_of_not_settled {total : Nat} {f : Nat → WriteAnswer} :
    ∀ {k : Nat}, ¬ Settled total f k →
      turns (firstAnswers f k) { totalBytes := total }
        = some { totalBytes := total
                 bytesSent := took f k
                 retryCount := 1 + retries f k } := by
  intro k
  induction k with
  | zero =>
      intro _
      rfl
  | succ k ih =>
      intro hnot
      have hprev : ¬ Settled total f k := fun h => hnot h.succ
      -- The answers before were none of those that settle the loop, and
      -- short.
      have htook : took f (k + 1) < total := by
        by_contra hge
        exact hnot (Or.inr (Or.inr (Or.inr (by omega))))
      rw [took_succ] at htook
      have hretries : retries f k < maxRetries := by
        by_contra hge
        exact hprev (Or.inr (Or.inr (Or.inl (by omega))))
      have hok : (f k).ec ≠ .ok := fun h =>
        hnot (Or.inr (Or.inl ⟨k, Nat.lt_succ_self k, Or.inl h⟩))
      have hperm : isPermanentFailure (f k).ec = false := by
        cases hp : isPermanentFailure (f k).ec with
        | false => rfl
        | true =>
            exact absurd
              (Or.inr (Or.inl ⟨k, Nat.lt_succ_self k, Or.inr hp⟩)) hnot
      have htaken : (f k).taken (total - took f k) = (f k).n := by
        rw [WriteAnswer.taken, if_neg hok]
        omega
      have hcond : ¬ (isPermanentFailure (f k).ec
          || decide (1 + retries f k > maxRetries)) = true := by
        simp only [hperm, Bool.false_or, decide_eq_true_eq]
        omega
      rw [firstAnswers_succ, turns_snoc, ih hprev, Option.bind_some, turns,
        if_pos (show took f k < total by omega), writeTurn, if_neg hcond]
      simp only [turns, TransferState.requested, htaken, took_succ,
        retries_succ]
      split <;> rfl

/-- A loop that is still running has met no answer without error and no
permanent failure, and its state is a sum over the answers. -/
theorem state_of_turns {total : Nat} {f : Nat → WriteAnswer} :
    ∀ {k : Nat} {st : TransferState},
      turns (firstAnswers f k) { totalBytes := total } = some st →
      st.bytesSent < st.totalBytes →
      (∀ j < k, (f j).ec ≠ .ok ∧ isPermanentFailure (f j).ec = false)
        ∧ st.totalBytes = total ∧ st.bytesSent = took f k
        ∧ st.retryCount = 1 + retries f k := by
  intro k
  induction k with
  | zero =>
      intro st hst _
      cases hst
      exact ⟨fun j hj => absurd hj (Nat.not_lt_zero j), rfl, rfl, rfl⟩
  | succ k ih =>
      intro st' hst hlt'
      rw [firstAnswers_succ, turns_snoc] at hst
      cases hprev : turns (firstAnswers f k) { totalBytes := total } with
      | none =>
          rw [hprev] at hst
          cases hst
      | some st =>
          rw [hprev, Option.bind_some, turns] at hst
          split at hst
          case isFalse => cases hst
          case isTrue hlt =>
            obtain ⟨hbefore, htotal, hsent, hretry⟩ := ih hprev hlt
            cases hturn : writeTurn st (f k) with
            | error result =>
                rw [hturn] at hst
                cases hst
            | ok next =>
                rw [hturn] at hst
                cases hst
                obtain ⟨hperm, -, htot', hsent', hretry'⟩ :=
                  writeTurn_ok hturn
                -- A success would have sent the rest.
                have hok : (f k).ec ≠ .ok := by
                  intro hok
                  rw [WriteAnswer.taken_ok hok,
                    TransferState.requested] at hsent'
                  omega
                have htaken : (f k).taken st.requested = (f k).n := by
                  rw [WriteAnswer.taken, if_neg hok] at hsent' ⊢
                  rw [TransferState.requested] at hsent' ⊢
                  omega
                refine ⟨fun j hj => ?_, htot'.trans htotal, ?_, ?_⟩
                · rcases Nat.lt_succ_iff_lt_or_eq.mp hj with hj' | rfl
                  · exact hbefore j hj'
                  · exact ⟨hok, hperm⟩
                · rw [hsent', htaken, hsent, took_succ]
                · rw [hretry', hretry, retries_succ]
                  split <;> rfl

/-- A running loop with a reason to stop has spent its retries: its next
turn returns. -/
theorem retries_spent_of_settled {total : Nat} {f : Nat → WriteAnswer}
    {k : Nat} {st : TransferState} (hset : Settled total f k)
    (hst : turns (firstAnswers f k) { totalBytes := total } = some st)
    (hlt : st.bytesSent < st.totalBytes) :
    maxRetries < st.retryCount := by
  obtain ⟨hbefore, htotal, hsent, hretry⟩ := state_of_turns hst hlt
  rcases hset with h | ⟨j, hj, hok | hperm⟩ | h | h
  · omega
  · exact absurd hok (hbefore j hj).1
  · rw [(hbefore j hj).2] at hperm
    cases hperm
  · omega
  · omega

-- ========================================================== the theorems

/-- Without a reason to stop the loop never returns. -/
theorem not_returns_of_never_settled {buffer : Bytes}
    {f : Nat → WriteAnswer} (h : ∀ k, ¬ Settled buffer.length f k) :
    ¬ Returns buffer f := by
  intro h
  obtain ⟨k, hk⟩ := h
  have hlt : took f k < buffer.length := by
    by_contra hge
    exact h k (Or.inr (Or.inr (Or.inr (by omega))))
  have hnone : (coWriteAll buffer (firstAnswers f k)).result = none :=
    (writeLoop_result_eq_none _ _ _ _).mpr
      ⟨_, turns_of_not_settled (h k), hlt⟩
  rw [hnone] at hk
  cases hk

/-- A reason to stop is acted on within one more write. -/
theorem returns_of_settled {buffer : Bytes} {f : Nat → WriteAnswer}
    {k : Nat} (h : Settled buffer.length f k) : Returns buffer f := by
  refine ⟨k + 1, ?_⟩
  by_contra hnone
  rw [Bool.not_eq_true, Option.isSome_eq_false_iff,
    Option.isNone_iff_eq_none, coWriteAll, writeLoop_result_eq_none] at hnone
  obtain ⟨st', hst', -⟩ := hnone
  rw [firstAnswers_succ, turns_snoc] at hst'
  cases hprev : turns (firstAnswers f k) { totalBytes := buffer.length } with
  | none =>
      rw [hprev] at hst'
      cases hst'
  | some st =>
      rw [hprev, Option.bind_some, turns] at hst'
      split at hst'
      case isFalse => cases hst'
      case isTrue hlt =>
        have hspent := retries_spent_of_settled h hprev hlt
        cases hturn : writeTurn st (f k) with
        | error result =>
            rw [hturn] at hst'
            cases hst'
        | ok next =>
            have := (writeTurn_ok hturn).2.1
            omega

/-- An answer that stalls does not advance a turn that is still going
round. -/
theorem not_advances_of_stalled {st : TransferState} {a : WriteAnswer}
    (ha : Stalled a) (hretry : st.retryCount ≤ maxRetries) :
    ¬ Advances st a := by
  obtain ⟨hn, hok, hperm, hretryable⟩ := ha
  have hcond : ¬ (isPermanentFailure a.ec
      || decide (st.retryCount > maxRetries)) = true := by
    simp only [hperm, Bool.false_or, decide_eq_true_eq]
    omega
  have htaken : a.taken st.requested = 0 := by
    rw [WriteAnswer.taken, if_neg hok, hn, Nat.zero_min]
  unfold Advances
  rw [writeTurn, if_neg hcond]
  simp [htaken, hretryable]

/-- A turn that does not advance met an answer that stalls, with retries
left. -/
theorem stalled_of_not_advances {st : TransferState} {a : WriteAnswer}
    (hlt : st.bytesSent < st.totalBytes) (hnot : ¬ Advances st a) :
    Stalled a ∧ st.retryCount ≤ maxRetries := by
  unfold Advances at hnot
  cases hturn : writeTurn st a with
  | error result =>
      rw [hturn] at hnot
      exact absurd trivial hnot
  | ok st' =>
      rw [hturn] at hnot
      obtain ⟨hperm, hretry, -, hsent', hretry'⟩ := writeTurn_ok hturn
      simp only [not_or, Nat.not_lt] at hnot
      have htaken : a.taken st.requested = 0 := by omega
      have hreq : 0 < st.requested := by
        rw [TransferState.requested]
        omega
      have hok : a.ec ≠ .ok := by
        intro hok
        rw [WriteAnswer.taken_ok hok] at htaken
        omega
      rw [WriteAnswer.taken, if_neg hok] at htaken
      refine ⟨⟨by omega, hok, hperm, ?_⟩, hretry⟩
      cases hr : isRetryable a.ec with
      | false => rfl
      | true =>
          rw [hr] at hretry'
          simp only [if_true] at hretry'
          omega

/-- `co_write_all` returns exactly on the sequences that ever hold a
reason to stop, and all its turns advance exactly when no zero-byte
answer outside the permanent and retryable errors comes before one. -/
theorem coWriteAll_ends_iff (buffer : Bytes) (f : Nat → WriteAnswer) :
    (Returns buffer f ↔ ∃ k, Settled buffer.length f k)
      ∧ (EveryTurnAdvances buffer.length f
          ↔ ∀ k, Stalled (f k) → Settled buffer.length f k) := by
  refine ⟨⟨fun hret => ?_, fun ⟨k, hk⟩ => returns_of_settled hk⟩,
    fun hadv k hstall => ?_, fun hset k st hst hlt => ?_⟩
  · by_contra hnever
    exact not_returns_of_never_settled
      (fun k hk => hnever ⟨k, hk⟩) hret
  · by_contra hnot
    have htook : took f k < buffer.length := by
      by_contra hge
      exact hnot (Or.inr (Or.inr (Or.inr (by omega))))
    have hretries : retries f k < maxRetries := by
      by_contra hge
      exact hnot (Or.inr (Or.inr (Or.inl (by omega))))
    have hrun := turns_of_not_settled hnot
    have hretry : 1 + retries f k ≤ maxRetries := by omega
    exact not_advances_of_stalled hstall hretry (hadv k _ hrun htook)
  · by_contra hnot
    obtain ⟨hstall, hretry⟩ := stalled_of_not_advances hlt hnot
    have := retries_spent_of_settled (hset k hstall) hst hlt
    omega

/-- Answers that all stall never hold a reason to stop. -/
theorem not_settled_of_stalled {total : Nat} {f : Nat → WriteAnswer}
    (htotal : total ≠ 0) (hstall : ∀ j, Stalled (f j)) (k : Nat) :
    ¬ Settled total f k := by
  have hretries : retries f k = 0 := by
    rw [retries, List.countP_eq_zero]
    intro a ha
    obtain ⟨j, -, rfl⟩ := List.mem_map.mp ha
    rw [(hstall j).2.2.2]
    exact Bool.false_ne_true
  have htook : took f k = 0 := by
    rw [took, List.sum_eq_zero]
    intro n hn
    obtain ⟨a, ha, rfl⟩ := List.mem_map.mp hn
    obtain ⟨j, -, rfl⟩ := List.mem_map.mp ha
    exact (hstall j).1
  intro h
  rcases h with h | ⟨j, -, hok | hperm⟩ | h | h
  · exact htotal h
  · exact (hstall j).2.1 hok
  · rw [(hstall j).2.2.1] at hperm
    cases hperm
  · rw [hretries] at h
    exact absurd h (by decide)
  · omega

/-- A client that disconnects before the first byte: the loop writes
for ever. -/
theorem disconnect_never_returns :
    ¬ Returns (bytes "x") fun _ => ⟨.connectionReset, 0⟩ :=
  not_returns_of_never_settled (not_settled_of_stalled (by decide)
    fun _ => ⟨rfl, by decide, by decide, by decide⟩)

end CgiWebServer
