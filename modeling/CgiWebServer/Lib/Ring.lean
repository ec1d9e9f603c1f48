/-
Rings: unbounded indices over an array of fixed size.

An index `i` has the place `i % n`. Within a window of `n` successive
indices no two share a place, so a ring is read through a window: what
it holds from an index on, index by index. `Shows` is that reading.
Storing inside the window changes it there and nowhere else, and taking
the first index moves the window on by one, whose new last index finds
the place that was just emptied.
-/
import Mathlib.Logic.Function.Basic

namespace Ring

variable {α : Type} {n : Nat}

/-- An array of `n` places; an empty one holds `none`. -/
structure Slots (n : Nat) (α : Type) where
  cells : Nat → Option α

namespace Slots

/-- Nothing anywhere. -/
def empty : Slots n α := ⟨fun _ => none⟩

/-- What the place of an index holds. -/
def get (r : Slots n α) (i : Nat) : Option α := r.cells (i % n)

/-- The place of an index, changed. -/
def put (r : Slots n α) (i : Nat) (x : Option α) : Slots n α :=
  ⟨Function.update r.cells (i % n) x⟩

@[simp] theorem get_empty (i : Nat) :
    (empty : Slots n α).get i = none := rfl

@[simp] theorem get_put_self (r : Slots n α) (i : Nat) (x : Option α) :
    (r.put i x).get i = x := Function.update_self ..

/-- Two indices less than the size apart have different places. -/
theorem mod_ne {i j : Nat} (hne : i ≠ j) (hij : i < j + n)
    (hji : j < i + n) : i % n ≠ j % n := by
  intro hmod
  have hi := Nat.div_add_mod i n
  have hj := Nat.div_add_mod j n
  rcases Nat.lt_trichotomy (i / n) (j / n) with hlt | heq | hlt
  · have := Nat.mul_le_mul_left n hlt
    rw [Nat.mul_succ] at this
    omega
  · rw [heq] at hi
    omega
  · have := Nat.mul_le_mul_left n hlt
    rw [Nat.mul_succ] at this
    omega

theorem get_put_other {r : Slots n α} {i j : Nat} (x : Option α)
    (hne : i ≠ j) (hij : i < j + n) (hji : j < i + n) :
    (r.put j x).get i = r.get i :=
  Function.update_of_ne (mod_ne hne hij hji) _ _

/-- The index one size on has the same place. -/
theorem get_add_size (r : Slots n α) (i : Nat) : r.get (i + n) = r.get i := by
  rw [get, get, Nat.add_mod_right]

-- ============================================================== windows

/-- In the window from `first` on, every index finds its own content. -/
def Shows (r : Slots n α) (first : Nat) (content : Nat → Option α) : Prop :=
  ∀ i, first ≤ i → i < first + n → r.get i = content i

theorem shows_empty (first : Nat) :
    (empty : Slots n α).Shows first fun _ => none :=
  fun _ _ _ => rfl

variable {r : Slots n α} {first : Nat} {content : Nat → Option α}

/-- Storing inside the window changes one index. -/
theorem Shows.put (h : r.Shows first content) {i : Nat} (hi : first ≤ i)
    (hi' : i < first + n) (x : Option α) :
    (r.put i x).Shows first (Function.update content i x) := by
  intro j hj hj'
  by_cases hij : j = i
  · subst hij
    rw [get_put_self, Function.update_self]
  · rw [get_put_other x hij (by omega) (by omega),
      Function.update_of_ne hij]
    exact h j hj hj'

/-- Emptying the first index moves the window on, where the index that
enters it has no content yet. -/
theorem Shows.take (h : r.Shows first content) (hn : 0 < n)
    (hnext : content (first + n) = none) :
    (r.put first none).Shows (first + 1) content := by
  intro i hi hi'
  by_cases hlast : i = first + n
  · subst hlast
    rw [get_add_size, get_put_self, hnext]
  · rw [get_put_other none (by omega) (by omega) (by omega)]
    exact h i (by omega) (by omega)

/-- Contents that agree in the window read the same. -/
theorem Shows.congr (h : r.Shows first content)
    {content' : Nat → Option α}
    (hsame : ∀ i, first ≤ i → i < first + n → content i = content' i) :
    r.Shows first content' :=
  fun i hi hi' => (h i hi hi').trans (hsame i hi hi')

end Slots

end Ring
