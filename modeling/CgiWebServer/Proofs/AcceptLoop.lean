/-
The accept loop over all sequences of results.

The loop keeps its law as long as every accept succeeds, and at a failure
`isError` ends the process for. At any other failure the law is gone at
once: `isError` returns `false` for it, and `run` starts a session on a
socket nobody has connected to. Whether the counter would stop the
server later no longer matters.
-/
import Mathlib.Data.List.Infix
import CgiWebServer.Net.Server

namespace CgiWebServer

namespace Accept

-- ============================================================== the law

/-- The places of the successes. -/
def successes (results : List ErrorCode) : List Nat :=
  (List.range results.length).filter fun i => results[i]? == some .ok

/-- The failures since the last success. -/
def failuresAtEnd (results : List ErrorCode) : Nat :=
  (results.reverse.takeWhile (· ≠ .ok)).length

/-- The law of the loop, in the state the results lead to. -/
structure Keeps (results : List ErrorCode) (s : State) : Prop where
  sessions : s.sessions = successes s.taken
  counter : s.taken.getLast? = some .ok → s.retries = 0
  stops : maxRetries < failuresAtEnd results → s.status = .fatal

theorem successes_append (results : List ErrorCode) (ec : ErrorCode) :
    successes (results ++ [ec])
      = successes results ++ if ec = .ok then [results.length] else [] := by
  have hold : (List.range results.length).filter
        (fun i => (results ++ [ec])[i]? == some .ok)
      = successes results := by
    refine List.filter_congr fun i hi => ?_
    rw [List.getElem?_append_left (List.mem_range.mp hi)]
  rw [successes, List.length_append, List.length_singleton,
    List.range_succ, List.filter_append, hold]
  congr 1
  by_cases hok : ec = .ok
  · simp [hok]
  · simp [hok]

/-- All successes: every place is one. -/
theorem successes_of_all_ok {results : List ErrorCode}
    (h : ∀ ec ∈ results, ec = .ok) :
    successes results = List.range results.length := by
  refine List.filter_eq_self.mpr fun i hi => ?_
  have hlt : i < results.length := List.mem_range.mp hi
  rw [List.getElem?_eq_getElem hlt, h _ (List.getElem_mem hlt)]
  rfl

theorem failuresAtEnd_of_all_ok {results : List ErrorCode}
    (h : ∀ ec ∈ results, ec = .ok) : failuresAtEnd results = 0 := by
  rw [failuresAtEnd, List.length_eq_zero_iff,
    List.takeWhile_eq_nil_iff]
  intro hlt hne
  have hmem := List.getElem_mem hlt
  exact absurd (h _ (List.mem_reverse.mp hmem)) (by simpa using hne)

-- ================================================================= turns

theorem run_append (results : List ErrorCode) (ec : ErrorCode) :
    run (results ++ [ec]) = turn (run results) ec := by
  rw [run, List.foldl_append]
  rfl

/-- `isError` says `false` whenever it comes back, and a success clears
the counter. -/
theorem isError_some {ec : ErrorCode} {retries n : Nat} {b : Bool}
    (h : isError ec retries = some (b, n)) :
    b = false ∧ (ec = .ok → n = 0) := by
  unfold isError at h
  split at h
  case isTrue =>
    cases h
    exact ⟨rfl, fun _ => rfl⟩
  case isFalse hne =>
    split at h
    · cases h
    · split at h
      · cases h
        exact ⟨rfl, fun hok => absurd hok hne⟩
      · cases h
        exact ⟨rfl, fun hok => absurd hok hne⟩

/-- `isError` ends the process for a failure only. -/
theorem isError_none {ec : ErrorCode} {retries : Nat}
    (h : isError ec retries = none) : ec ≠ .ok := by
  intro hok
  subst hok
  cases h

/-- What a turn does: nothing once the loop has ended; it ends it with a
`FATAL`; or it starts a session and waits again. -/
theorem turn_cases (s : State) (ec : ErrorCode) :
    (s.status ≠ .waiting ∧ turn s ec = s)
      ∨ (ec ≠ .ok ∧ turn s ec
          = { s with status := .fatal, taken := s.taken ++ [ec] })
      ∨ ∃ retries, (ec = .ok → retries = 0) ∧ turn s ec
          = { retries := retries, status := .waiting,
              taken := s.taken ++ [ec],
              sessions := s.sessions ++ [s.taken.length] } := by
  unfold turn
  cases hstatus : s.status with
  | waiting =>
      right
      dsimp only
      cases hret : isError ec s.retries with
      | none => exact Or.inl ⟨isError_none hret, rfl⟩
      | some r =>
          obtain ⟨b, retries⟩ := r
          obtain ⟨rfl, hcounter⟩ := isError_some hret
          exact Or.inr ⟨retries, hcounter, rfl⟩
  | returned => exact Or.inl ⟨by simp, rfl⟩
  | fatal => exact Or.inl ⟨by simp, rfl⟩

/-- Behind a success the counter is zero, whatever came before. -/
theorem run_counter (results : List ErrorCode) :
    (run results).taken.getLast? = some .ok → (run results).retries = 0 := by
  induction results using List.reverseRecOn with
  | nil => exact fun _ => rfl
  | append_singleton front ec ih =>
      rw [run_append]
      rcases turn_cases (run front) ec with
        ⟨-, hturn⟩ | ⟨hne, hturn⟩ | ⟨retries, hcounter, hturn⟩
      · rw [hturn]
        exact ih
      · rw [hturn, List.getLast?_concat]
        exact fun hlast => absurd (Option.some.inj hlast) hne
      · rw [hturn, List.getLast?_concat]
        exact fun hlast => hcounter (Option.some.inj hlast)

/-- A loop that has ended takes no more results. -/
theorem turn_of_fatal {s : State} (h : s.status = .fatal)
    (ec : ErrorCode) : turn s ec = s := by
  unfold turn
  rw [h]

theorem foldl_of_fatal {s : State} (h : s.status = .fatal)
    (results : List ErrorCode) : results.foldl turn s = s := by
  induction results with
  | nil => rfl
  | cons ec rest ih => rw [List.foldl_cons, turn_of_fatal h, ih]

/-- As long as every accept succeeds. -/
theorem run_of_all_ok {results : List ErrorCode}
    (h : ∀ ec ∈ results, ec = .ok) :
    run results
      = { retries := 0, status := .waiting, taken := results,
          sessions := List.range results.length } := by
  induction results using List.reverseRecOn with
  | nil => rfl
  | append_singleton front ec ih =>
      have hec : ec = .ok := h ec (by simp)
      have hfront : ∀ e ∈ front, e = .ok := fun e he =>
        h e (List.mem_append_left _ he)
      subst hec
      rw [run_append, ih hfront, List.length_append,
        List.length_singleton, List.range_succ]
      rfl

section FirstFailure

variable {front : List ErrorCode} {e : ErrorCode}

/-- The first failure ends the process if it is of the fatal kind. -/
theorem run_first_fatal (hfront : ∀ ec ∈ front, ec = .ok) (he : e ≠ .ok)
    (hfatal : isFatal e = true) (rest : List ErrorCode) :
    run (front ++ e :: rest)
      = { retries := 0, status := .fatal, taken := front ++ [e],
          sessions := List.range front.length } := by
  have hturn : turn (run front) e
      = { retries := 0, status := .fatal, taken := front ++ [e],
          sessions := List.range front.length } := by
    rw [run_of_all_ok hfront]
    simp only [turn, isError, if_neg he, hfatal, or_true, if_true]
  rw [run, List.foldl_append, List.foldl_cons]
  show rest.foldl turn (turn (run front) e) = _
  rw [hturn]
  exact foldl_of_fatal rfl rest

/-- Any other first failure starts a session. -/
theorem sessions_first_failure (hfront : ∀ ec ∈ front, ec = .ok)
    (he : e ≠ .ok) (hfatal : isFatal e = false) :
    (run (front ++ [e])).sessions = List.range (front.length + 1)
      ∧ (run (front ++ [e])).taken = front ++ [e] := by
  rw [run_append, run_of_all_ok hfront]
  have hretries : ¬ (0 > maxRetries ∨ isFatal e = true) := by
    rw [hfatal]
    decide
  by_cases hback : backsOff e = true
  · simp only [turn, isError, if_neg he, if_neg hretries, if_pos hback,
      List.range_succ, and_self]
  · simp only [turn, isError, if_neg he, if_neg hretries, if_neg hback,
      List.range_succ, and_self]

end FirstFailure

-- ================================================================ the law

/-- The loop keeps its law as long as every accept succeeds. -/
theorem keeps_of_all_ok {results : List ErrorCode}
    (h : ∀ ec ∈ results, ec = .ok) : Keeps results (run results) := by
  refine ⟨?_, run_counter results, fun hmany => ?_⟩
  · rw [run_of_all_ok h]
    exact (successes_of_all_ok h).symm
  · rw [failuresAtEnd_of_all_ok h] at hmany
    exact absurd hmany (Nat.not_lt_zero _)

/-- It keeps it at a failure of the fatal kind, and for good. -/
theorem keeps_of_fatal {front rest : List ErrorCode} {e : ErrorCode}
    (hfront : ∀ ec ∈ front, ec = .ok) (he : e ≠ .ok)
    (hfatal : isFatal e = true) :
    Keeps (front ++ e :: rest) (run (front ++ e :: rest)) := by
  have hrun := run_first_fatal hfront he hfatal rest
  refine ⟨?_, run_counter _, fun _ => ?_⟩
  · rw [hrun]
    show List.range front.length = successes (front ++ [e])
    rw [successes_append, if_neg he, List.append_nil,
      successes_of_all_ok hfront]
  · rw [hrun]

/-- Any other first failure breaks it. -/
theorem not_keeps_of_failure {front : List ErrorCode} {e : ErrorCode}
    (hfront : ∀ ec ∈ front, ec = .ok) (he : e ≠ .ok)
    (hfatal : isFatal e = false) :
    ¬ Keeps (front ++ [e]) (run (front ++ [e])) := by
  intro h
  obtain ⟨hsessions, htaken⟩ := sessions_first_failure hfront he hfatal
  have hmem : front.length ∈ (run (front ++ [e])).sessions := by
    rw [hsessions]
    exact List.mem_range.mpr (Nat.lt_succ_self _)
  rw [h.sessions, htaken, successes_append, if_neg he, List.append_nil,
    successes_of_all_ok hfront, List.mem_range] at hmem
  exact Nat.lt_irrefl _ hmem

/-- The loop keeps its law along a sequence of results exactly if its
first failure, if there is one, is of the fatal kind. -/
theorem accept_law_iff (results : List ErrorCode) :
    (∀ front, front <+: results → Keeps front (run front))
      ↔ ∀ e, results.find? (· ≠ .ok) = some e → isFatal e = true := by
  constructor
  · intro h e hfind
    obtain ⟨hne, front, rest, hsplit, hfront⟩ :=
      List.find?_eq_some_iff_append.mp hfind
    have hok : ∀ ec ∈ front, ec = .ok := fun ec hec => by
      simpa using hfront ec hec
    by_contra hfatal
    refine not_keeps_of_failure hok (by simpa using hne)
      (by simpa using hfatal) (h (front ++ [e]) ?_)
    exact ⟨rest, by rw [hsplit, List.append_assoc]; rfl⟩
  · intro h front hinit
    cases hfind : front.find? (· ≠ .ok) with
    | none =>
        exact keeps_of_all_ok fun ec hec => by
          simpa using List.find?_eq_none.mp hfind ec hec
    | some e =>
        have hfatal : isFatal e = true :=
          h e (hinit.find?_eq_some hfind)
        obtain ⟨hne, oks, rest, hsplit, hoks⟩ :=
          List.find?_eq_some_iff_append.mp hfind
        rw [hsplit]
        exact keeps_of_fatal (fun ec hec => by simpa using hoks ec hec)
          (by simpa using hne) hfatal

/-- A process out of descriptors: every accept fails with `EMFILE`. The
loop starts a session for each, counts none and does not stop. -/
theorem out_of_descriptors :
    ¬ (∀ front, front <+: List.replicate 8 (.other 24) →
        Keeps front (run front))
      ∧ (run (List.replicate 8 (.other 24))).sessions = List.range 8
      ∧ (run (List.replicate 8 (.other 24))).status = .waiting := by
  refine ⟨fun h => ?_, rfl, rfl⟩
  have hkeeps := h _ (List.prefix_refl _)
  exact absurd (hkeeps.stops (by decide)) (by decide)

end Accept

end CgiWebServer
