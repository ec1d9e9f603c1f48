/-
Loops over a list that may fail, as loaders run them: one element after
the other, each step from the state the last one left.

A loop that is through satisfies what holds of the elements done so far
and is kept by every step (`foldlM_done`). What a loop writes under one
key is what its last write to that key wrote, and what was there before
if none wrote to it (`foldlM_lastWrite`).
-/
import Mathlib.Data.List.Basic

namespace Loads

variable {ε σ α β γ : Type}

/-- A sequence of two computations that returns. -/
theorem bind_ok {x : Except ε α} {f : α → Except ε β} {b : β}
    (h : x >>= f = .ok b) : ∃ a, x = .ok a ∧ f a = .ok b := by
  cases x with
  | error e => cases h
  | ok a => exact ⟨a, rfl, h⟩

/-- An invariant over the elements a loop has done. -/
theorem foldlM_done {step : σ → α → Except ε σ}
    {P : List α → σ → Prop}
    (hstep : ∀ done a s s', P done s → step s a = .ok s' →
      P (done ++ [a]) s')
    {l : List α} {s s' : σ} (h : l.foldlM step s = .ok s') (hs : P [] s) :
    P l s' := by
  have hrun : ∀ (rest done : List α) (s : σ), P done s →
      rest.foldlM step s = .ok s' → P (done ++ rest) s' := by
    intro rest
    induction rest with
    | nil =>
        intro done s hs h
        cases h
        rwa [List.append_nil]
    | cons a rest ih =>
        intro done s hs h
        rw [List.foldlM_cons] at h
        obtain ⟨next, hnext, hrest⟩ := bind_ok h
        have hdone := ih (done ++ [a]) next (hstep done a s next hs hnext) hrest
        rwa [List.append_assoc] at hdone
  exact hrun l [] s hs h

-- ============================================================ last writes

/-- The last of a list's elements that writes, by what it writes. -/
def lastWrite (write : α → Option β) (l : List α) : Option β :=
  l.reverse.findSome? write

theorem lastWrite_nil (write : α → Option β) :
    lastWrite write [] = none := rfl

theorem lastWrite_snoc (write : α → Option β) (l : List α) (a : α) :
    lastWrite write (l ++ [a]) = (write a).or (lastWrite write l) := by
  unfold lastWrite
  rw [List.reverse_append, List.reverse_singleton, List.singleton_append,
    List.findSome?_cons]
  cases write a with
  | none => rfl
  | some b => rfl

/-- The last element that writes: none behind it does. -/
theorem lastWrite_eq_some {write : α → Option β} {l : List α} {b : β} :
    lastWrite write l = some b ↔ ∃ before a after,
      l = before ++ a :: after ∧ write a = some b
        ∧ ∀ later ∈ after, write later = none := by
  unfold lastWrite
  rw [List.findSome?_eq_some_iff]
  constructor
  · intro h
    obtain ⟨after, a, before, hsplit, hwrite, hnone⟩ := h
    refine ⟨before.reverse, a, after.reverse, ?_, hwrite, ?_⟩
    · rw [List.reverse_eq_iff.mp hsplit]
      simp
    · intro later hlater
      exact hnone later (List.mem_reverse.mp hlater)
  · intro h
    obtain ⟨before, a, after, rfl, hwrite, hnone⟩ := h
    refine ⟨after.reverse, a, before.reverse, by simp, hwrite, ?_⟩
    intro later hlater
    exact hnone later (List.mem_reverse.mp hlater)

/-- No element writes. -/
theorem lastWrite_eq_none {write : α → Option β} {l : List α} :
    lastWrite write l = none ↔ ∀ a ∈ l, write a = none := by
  unfold lastWrite
  rw [List.findSome?_eq_none_iff]
  simp only [List.mem_reverse]

/-- What a loop leaves under a key: its last write to it, or what was
there. -/
theorem foldlM_lastWrite {step : σ → α → Except ε σ}
    (read : σ → Option γ) (write : α → Option γ)
    (hstep : ∀ s a s', step s a = .ok s' →
      read s' = (write a).or (read s))
    {l : List α} {s s' : σ} (h : l.foldlM step s = .ok s') :
    read s' = (lastWrite write l).or (read s) := by
  refine foldlM_done (P := fun done now =>
    read now = (lastWrite write done).or (read s)) ?_ h ?_
  · intro done a now next hnow hnext
    rw [hstep now a next hnext, hnow, lastWrite_snoc, Option.or_assoc]
  · rw [lastWrite_nil, Option.none_or]

end Loads
