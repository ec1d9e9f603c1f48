/-
What holds at every step of a sequence.

A property of the steps is asked of each one with those before it. A
property of whole sequences that an empty one has, and that a longer one
has exactly where the shorter one has it and its last step is as asked,
is that property of every step (`iff_every`).
-/
import Mathlib.Data.List.Induction

namespace Steps

variable {α : Type} {P : List α → α → Prop}

/-- Of every element of a list, with those before it. -/
def Every (P : List α → α → Prop) (l : List α) : Prop :=
  ∀ before a after, l = before ++ a :: after → P before a

theorem every_nil : Every P [] := by
  intro before a after h
  cases before <;> cases h

theorem every_snoc {l : List α} {a : α} :
    Every P (l ++ [a]) ↔ Every P l ∧ P l a := by
  constructor
  · intro h
    refine ⟨fun before b after hsplit => h before b (after ++ [a]) ?_,
      h l a [] rfl⟩
    rw [hsplit, List.append_assoc, List.cons_append]
  · rintro ⟨hl, hlast⟩ before b after hsplit
    rcases List.eq_nil_or_concat after with rfl | ⟨init, c, rfl⟩
    · obtain ⟨rfl, hb⟩ := List.append_inj' hsplit rfl
      obtain rfl := List.singleton_inj.mp hb
      exact hlast
    · rw [List.concat_eq_append, ← List.cons_append,
        ← List.append_assoc] at hsplit
      exact hl before b init (List.append_inj' hsplit rfl).1

/-- A property of sequences that every step decides. -/
theorem iff_every {Q : List α → Prop} (hnil : Q [])
    (hsnoc : ∀ l a, Q (l ++ [a]) ↔ Q l ∧ P l a) (l : List α) :
    Q l ↔ Every P l := by
  induction l using List.reverseRecOn with
  | nil => exact iff_of_true hnil every_nil
  | append_singleton l a ih => rw [hsnoc, ih, every_snoc]

end Steps
