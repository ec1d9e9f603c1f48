/-
Lexical paths: splitting at a separator, and resolving the segments `.`
and `..` without looking at a file system.

Resolution runs a stack of names over the segments: a name is pushed,
`..` pops (at the bottom it does nothing), and `.` and the empty segment
do nothing. What a list of segments does to every stack is its normal
form, how many names it climbs off the stack and which names it then
leaves on it (`resolve_eq`). Whether a resolved path lies inside a
directory can be read off the normal form (`inside_climb_iff`).

Segments and the alphabet are parameters: a classifier says which
segments are `..` and which do nothing.
-/
import Mathlib.Data.List.Basic

namespace LexPath

-- ============================================================= splitting

/-- The segments between separators; there is always at least one. -/
def segments {α : Type} [DecidableEq α] (sep : α) : List α → List (List α)
  | [] => [[]]
  | c :: rest =>
      if c = sep then [] :: segments sep rest
      else
        match segments sep rest with
        | [] => [[c]]
        | s :: ss => (c :: s) :: ss

section Segments

variable {α : Type} [DecidableEq α] {sep : α}

theorem segments_ne_nil (l : List α) : segments sep l ≠ [] := by
  cases l with
  | nil => simp [segments]
  | cons c rest =>
      unfold segments
      split
      · simp
      · split <;> simp

/-- Text in front of the first separator goes into the first segment. -/
theorem segments_append {name : List α} (hname : sep ∉ name)
    (l : List α) {s : List α} {ss : List (List α)}
    (hl : segments sep l = s :: ss) :
    segments sep (name ++ l) = (name ++ s) :: ss := by
  induction name with
  | nil => exact hl
  | cons c name ih =>
      rw [List.mem_cons, not_or] at hname
      rw [List.cons_append, segments, if_neg (Ne.symm hname.1),
        ih hname.2]
      rfl

end Segments

-- ============================================================ resolution

/-- What a segment does to the stack. -/
inductive Kind
  | stay
  | up
  | name
  deriving DecidableEq, Repr

section Resolve

variable {β : Type} (kind : β → Kind)

/-- The stack, outermost name first, after one segment. -/
def push (stack : List β) (s : β) : List β :=
  match kind s with
  | .stay => stack
  | .up => stack.dropLast
  | .name => stack ++ [s]

/-- Lexical resolution of segments from a directory. -/
def resolve (base segs : List β) : List β := segs.foldl (push kind) base

/-- The normal form after one more segment: `..` takes back the last
name, or climbs once more if there is none. -/
def normalStep (nf : Nat × List β) (s : β) : Nat × List β :=
  match kind s with
  | .stay => nf
  | .up => if nf.2 = [] then (nf.1 + 1, []) else (nf.1, nf.2.dropLast)
  | .name => (nf.1, nf.2 ++ [s])

/-- How far segments climb, and the names they leave. -/
def normalForm (segs : List β) : Nat × List β :=
  segs.foldl (normalStep kind) (0, [])

/-- How far segments climb above their start. -/
def climbs (segs : List β) : Nat := (normalForm kind segs).1

/-- The names segments leave, from where they have climbed to. -/
def names (segs : List β) : List β := (normalForm kind segs).2

/-- One segment does to the stack what it does to the normal form. -/
theorem push_normal (base : List β) (nf : Nat × List β) (s : β) :
    push kind (base.take (base.length - nf.1) ++ nf.2) s
      = base.take (base.length - (normalStep kind nf s).1)
        ++ (normalStep kind nf s).2 := by
  unfold push normalStep
  cases kind s with
  | stay => rfl
  | name => exact List.append_assoc _ _ _
  | up =>
      simp only
      split
      next hnil =>
        rw [hnil, List.append_nil, List.append_nil, List.dropLast_eq_take,
          List.take_take, List.length_take]
        congr 1
        omega
      next hne => exact List.dropLast_append_of_ne_nil hne

/-- Resolution by the normal form. -/
theorem resolve_eq (base segs : List β) :
    resolve kind base segs
      = base.take (base.length - climbs kind segs) ++ names kind segs := by
  have hgen : ∀ (segs : List β) (nf : Nat × List β),
      segs.foldl (push kind) (base.take (base.length - nf.1) ++ nf.2)
        = base.take (base.length
            - (segs.foldl (normalStep kind) nf).1)
          ++ (segs.foldl (normalStep kind) nf).2 := by
    intro segs
    induction segs with
    | nil => exact fun _ => rfl
    | cons s rest ih =>
        intro nf
        rw [List.foldl_cons, List.foldl_cons, push_normal]
        exact ih _
  have hstart := hgen segs (0, [])
  rw [Nat.sub_zero, List.take_length, List.append_nil] at hstart
  exact hstart

/-- A stack that keeps `j` names of a directory and adds names lies
inside the directory exactly if the added names lead back into it. -/
theorem inside_take_iff (dir added : List β) (j : Nat) :
    dir <+: dir.take j ++ added ↔ dir.drop j <+: added := by
  nth_rewrite 1 [← List.take_append_drop j dir]
  exact List.prefix_append_right_inj _

/-- Where segments that are resolved from `parent ++ [s]` end up inside
`parent ++ [d]`: without climbing, if `s` is `d`; otherwise if their
names lead back into it. -/
theorem inside_climb_iff (parent segs : List β) (s d : β) :
    parent ++ [d] <+: resolve kind (parent ++ [s]) segs
      ↔ (climbs kind segs = 0 ∧ s = d)
        ∨ (climbs kind segs ≠ 0
          ∧ parent.drop (parent.length + 1 - climbs kind segs) ++ [d]
            <+: names kind segs) := by
  rw [resolve_eq, List.length_append, List.length_singleton]
  by_cases hclimb : climbs kind segs = 0
  · have hall : (parent ++ [s]).take (parent.length + 1) = parent ++ [s] :=
      List.take_of_length_le (by simp)
    rw [hclimb, Nat.sub_zero, hall, List.append_assoc,
      List.prefix_append_right_inj, List.singleton_append,
      List.cons_prefix_cons]
    constructor
    · intro h
      obtain ⟨rfl, -⟩ := h
      exact Or.inl ⟨rfl, rfl⟩
    · intro h
      rcases h with ⟨-, rfl⟩ | ⟨hne, -⟩
      · exact ⟨rfl, List.nil_prefix⟩
      · exact absurd rfl hne
  · -- After a climb what was pushed first is gone: the stack keeps a
    -- part of the parent.
    have hle : parent.length + 1 - climbs kind segs ≤ parent.length := by
      omega
    have hparent : (parent ++ [s]).take (parent.length + 1
        - climbs kind segs)
        = (parent ++ [d]).take (parent.length + 1 - climbs kind segs) := by
      rw [List.take_append_of_le_length hle,
        List.take_append_of_le_length hle]
    rw [hparent, inside_take_iff, List.drop_append_of_le_length hle]
    constructor
    · exact fun h => Or.inr ⟨hclimb, h⟩
    · intro h
      rcases h with ⟨hzero, -⟩ | ⟨-, h⟩
      · exact absurd hzero hclimb
      · exact h

end Resolve

end LexPath
