/-
A word that is spent.

An attempt at a word either takes one from what is left in it, or finds
nothing left and leaves the word. As long as every attempt meets the
condition under which this is so (`Spends`), a run of attempts succeeds
as often as there was left, and those that succeed come first.
-/
import Mathlib.Data.List.Basic

namespace Budget

variable {ι ω : Type}

/-- Which of a run of attempts succeed. -/
def outcomes (attempt : ι → ω → Option ω) : List ι → ω → List Bool
  | [], _ => []
  | i :: rest, w =>
      (attempt i w).isSome :: outcomes attempt rest ((attempt i w).getD w)

/-- Attempts that meet the condition `Now` spend what is `left`, and what
meets it at a word meets it at the word it leaves. -/
structure Spends (attempt : ι → ω → Option ω) (left : ω → Nat)
    (Now : ι → ω → Prop) : Prop where
  empty : ∀ {i : ι} {w : ω}, Now i w → left w = 0 → attempt i w = none
  spend : ∀ {i : ι} {w : ω}, Now i w → 0 < left w →
    ∃ w', attempt i w = some w' ∧ left w' + 1 = left w
      ∧ ∀ j, Now j w → Now j w'

variable {attempt : ι → ω → Option ω} {left : ω → Nat}
  {Now : ι → ω → Prop}

/-- What is left succeeds, and then nothing does. -/
theorem Spends.outcomes_eq (h : Spends attempt left Now) (is : List ι) :
    ∀ {w : ω}, (∀ i ∈ is, Now i w) →
      outcomes attempt is w
        = List.replicate (min (left w) is.length) true
          ++ List.replicate (is.length - left w) false := by
  induction is with
  | nil => exact fun _ => by simp [outcomes]
  | cons i rest ih =>
      intro w hnow
      have hrest : ∀ j ∈ rest, Now j w := fun j hj =>
        hnow j (List.mem_cons_of_mem _ hj)
      rcases Nat.eq_zero_or_pos (left w) with hzero | hpos
      · have hnone := h.empty (hnow i List.mem_cons_self) hzero
        rw [outcomes, hnone, Option.getD_none, ih hrest, hzero]
        simp [List.replicate_succ]
      · obtain ⟨w', hsome, hleft, hstays⟩ :=
          h.spend (hnow i List.mem_cons_self) hpos
        rw [outcomes, hsome, Option.getD_some,
          ih fun j hj => hstays j (hrest j hj)]
        have hfirst : min (left w) (rest.length + 1)
            = min (left w') rest.length + 1 := by
          omega
        have hlast : rest.length + 1 - left w = rest.length - left w' := by
          omega
        rw [List.length_cons, hfirst, hlast, List.replicate_succ]
        rfl

end Budget
