/-
Handles: names that a table gives out and takes back.

A table tells who a handle belongs to, if anyone. Whoever asks gets a
handle that is free, and giving one back makes it free again, whoever
gives it back: the table does not check. `Holds` says that a client has
its books right: it lists each handle the table has it down for, once.
The rules say what a client's books become when it takes a handle or
gives one of its own back, and that the others' stay right.
-/
import Mathlib.Data.List.Basic
import Mathlib.Logic.Function.Basic

namespace Handles

variable {η ι : Type} [DecidableEq η]

/-- Who has each handle. -/
structure Table (η ι : Type) where
  owner : η → Option ι := fun _ => none

namespace Table

/-- A handle is given out. -/
def take (t : Table η ι) (n : η) (i : ι) : Table η ι :=
  ⟨Function.update t.owner n (some i)⟩

/-- A handle is given back. -/
def free (t : Table η ι) (n : η) : Table η ι :=
  ⟨Function.update t.owner n none⟩

@[simp] theorem owner_take_self (t : Table η ι) (n : η) (i : ι) :
    (t.take n i).owner n = some i := Function.update_self ..

theorem owner_take_other {t : Table η ι} {n m : η} (i : ι) (h : m ≠ n) :
    (t.take n i).owner m = t.owner m := Function.update_of_ne h _ _

@[simp] theorem owner_free_self (t : Table η ι) (n : η) :
    (t.free n).owner n = none := Function.update_self ..

theorem owner_free_other {t : Table η ι} {n m : η} (h : m ≠ n) :
    (t.free n).owner m = t.owner m := Function.update_of_ne h _ _

end Table

-- ================================================================ holding

/-- A client's books are right. -/
structure Holds (t : Table η ι) (i : ι) (held : List η) : Prop where
  nodup : held.Nodup
  owner : ∀ n, t.owner n = some i ↔ n ∈ held

variable {t : Table η ι} {i j : ι} {n : η} {held : List η}

omit [DecidableEq η] in
/-- The order of the books does not matter. -/
theorem Holds.perm (h : Holds t i held) {held' : List η}
    (hperm : held.Perm held') : Holds t i held' :=
  ⟨hperm.nodup h.nodup, fun n => (h.owner n).trans hperm.mem_iff⟩

/-- Taking a free handle. -/
theorem Holds.take (h : Holds t i held) (hfree : t.owner n = none) :
    Holds (t.take n i) i (n :: held) := by
  refine ⟨List.nodup_cons.mpr ⟨fun hmem => ?_, h.nodup⟩, fun m => ?_⟩
  · exact absurd (hfree.symm.trans ((h.owner n).mpr hmem)) (by simp)
  · rw [List.mem_cons]
    by_cases hm : m = n
    · subst hm
      simp only [Table.owner_take_self, true_or]
    · simp only [Table.owner_take_other i hm, h.owner m, hm, false_or]

/-- Another client takes a free handle. -/
theorem Holds.take_other (h : Holds t i held) (hfree : t.owner n = none)
    (hij : i ≠ j) : Holds (t.take n j) i held := by
  refine ⟨h.nodup, fun m => ?_⟩
  by_cases hm : m = n
  · subst hm
    rw [Table.owner_take_self, ← h.owner m, hfree]
    simp only [Option.some.injEq, Ne.symm hij, reduceCtorEq]
  · rw [Table.owner_take_other j hm, h.owner m]

/-- Giving back the first handle of the books. -/
theorem Holds.free (h : Holds t i (n :: held)) :
    Holds (t.free n) i held := by
  obtain ⟨hnew, hrest⟩ := List.nodup_cons.mp h.nodup
  refine ⟨hrest, fun m => ?_⟩
  by_cases hm : m = n
  · subst hm
    simp only [Table.owner_free_self, reduceCtorEq, hnew]
  · rw [Table.owner_free_other hm, h.owner m, List.mem_cons]
    simp only [hm, false_or]

/-- Another client gives one of its own back. -/
theorem Holds.free_other (h : Holds t i held)
    (hother : t.owner n = some j) (hij : i ≠ j) :
    Holds (t.free n) i held := by
  refine ⟨h.nodup, fun m => ?_⟩
  by_cases hm : m = n
  · subst hm
    rw [Table.owner_free_self, ← h.owner m, hother]
    simp only [Option.some.injEq, Ne.symm hij, reduceCtorEq]
  · rw [Table.owner_free_other hm, h.owner m]

end Handles
