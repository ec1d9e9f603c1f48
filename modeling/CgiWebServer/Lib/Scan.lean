/-
First occurrences: the search for a pattern in a list, as the standard
string searches do it, over any element type.

# The search

`find pat l` is the least position of `l` at which `pat` is a prefix of
what is left; `findFrom` starts the search at a position and answers in
the coordinates of the whole list. `find_eq_some_iff` is the meaning
that every other lemma is read off.

# The rules

Two shapes cover the scanners of a text format. A field that cannot
contain the pattern is skipped whole (`find_skip`, and
`find_skip_of_head` when the pattern's first element does not occur in
the field); an occurrence that is there stays the first one whatever is
appended behind it (`find_append_of_some`). Two-element separators whose
halves differ have a rule of their own (`find_pair`): an occurrence
cannot straddle the end of a field that has none.
-/
import Mathlib.Data.List.Basic
import Mathlib.Data.List.Infix
import Mathlib.Data.List.TakeWhile

namespace Scan

variable {α : Type _} [DecidableEq α]

-- ======================================================= the search

/-- The least position at which `pat` starts, if there is one. -/
def find (pat : List α) : List α → Option Nat
  | [] => if pat.isEmpty then some 0 else none
  | x :: xs =>
      if pat.isPrefixOf (x :: xs) then some 0
      else (find pat xs).map (· + 1)

/-- The least position from `pos` on at which `pat` starts. -/
def findFrom (pat l : List α) (pos : Nat) : Option Nat :=
  (find pat (l.drop pos)).map (pos + ·)

omit [DecidableEq α] in
/-- Only the empty pattern starts at the end of the list. -/
private theorem prefix_nil_iff {pat : List α} :
    pat <+: [] ↔ pat.isEmpty = true := by
  rw [List.prefix_nil, List.isEmpty_iff]

/-- One step of the search, by whether the pattern starts here. -/
theorem find_cons (pat : List α) (x : α) (xs : List α) :
    find pat (x :: xs)
      = if pat <+: x :: xs then some 0 else (find pat xs).map (· + 1) := by
  simp only [find, List.isPrefixOf_iff_prefix]

/-- The search answers the first position at which the pattern starts. -/
theorem find_eq_some_iff {pat l : List α} {i : Nat} :
    find pat l = some i
      ↔ i ≤ l.length ∧ pat <+: l.drop i
          ∧ ∀ j < i, ¬ pat <+: l.drop j := by
  induction l generalizing i with
  | nil =>
      simp only [find, List.drop_nil, prefix_nil_iff, List.length_nil]
      by_cases hp : pat.isEmpty = true
      · rw [if_pos hp]
        constructor
        · intro h
          cases h
          exact ⟨Nat.le_refl _, hp, fun j hj => absurd hj (Nat.not_lt_zero j)⟩
        · intro h
          obtain ⟨hi, -, -⟩ := h
          rw [Nat.le_zero.mp hi]
      · rw [if_neg hp]
        constructor
        · intro h
          cases h
        · intro h
          obtain ⟨-, h, -⟩ := h
          exact absurd h hp
  | cons x xs ih =>
      rw [find_cons]
      -- The pattern is here, or it is found in the rest, one further.
      by_cases hp : pat <+: x :: xs
      · rw [if_pos hp]
        constructor
        · intro h
          cases h
          exact ⟨Nat.zero_le _, hp, fun j hj => absurd hj (Nat.not_lt_zero j)⟩
        · intro h
          obtain ⟨-, -, hfirst⟩ := h
          cases i with
          | zero => rfl
          | succ i => exact absurd hp (hfirst 0 (Nat.succ_pos i))
      · rw [if_neg hp]
        cases i with
        | zero =>
            constructor
            · intro h
              cases hf : find pat xs <;> simp [hf] at h
            · intro h
              obtain ⟨-, h, -⟩ := h
              exact absurd h hp
        | succ i =>
            have hmap : (find pat xs).map (· + 1) = some (i + 1)
                ↔ find pat xs = some i := by
              cases find pat xs <;> simp
            rw [hmap, ih]
            constructor
            · intro h
              obtain ⟨hi, hpre, hfirst⟩ := h
              refine ⟨by simpa using hi, hpre, fun j hj => ?_⟩
              cases j with
              | zero => exact hp
              | succ j => exact hfirst j (by omega)
            · intro h
              obtain ⟨hi, hpre, hfirst⟩ := h
              exact ⟨by simpa using hi, hpre,
                fun j hj => hfirst (j + 1) (by omega)⟩

/-- The search finds nothing exactly where the pattern is nowhere. -/
theorem find_eq_none_iff {pat l : List α} :
    find pat l = none ↔ ¬ pat <:+: l := by
  induction l with
  | nil =>
      rw [List.infix_nil, find, ← List.isEmpty_iff]
      split
      next hp => exact iff_of_false (by simp) (not_not_intro hp)
      next hp => exact iff_of_true rfl hp
  | cons x xs ih =>
      rw [find_cons, List.infix_cons_iff, not_or]
      split
      next hp => exact iff_of_false (by simp) fun h => h.1 hp
      next hp => rw [Option.map_eq_none_iff, ih, and_iff_right hp]

/-- What is found is there whole. -/
theorem length_of_find {pat l : List α} {i : Nat}
    (h : find pat l = some i) : i + pat.length ≤ l.length := by
  obtain ⟨hi, hpre, -⟩ := find_eq_some_iff.mp h
  have hlen := hpre.length_le
  rw [List.length_drop] at hlen
  omega

/-- What is found is somewhere. -/
theorem infix_of_find {pat l : List α} {i : Nat}
    (h : find pat l = some i) : pat <:+: l := by
  by_contra hnone
  cases (find_eq_none_iff.mpr hnone).symm.trans h

/-- In front of what is found there is no other occurrence. -/
theorem not_infix_take_of_find {pat l : List α} {i : Nat}
    (hpat : pat ≠ []) (h : find pat l = some i) :
    ¬ pat <:+: l.take i := by
  obtain ⟨hi, -, hfirst⟩ := find_eq_some_iff.mp h
  intro hin
  obtain ⟨a, b, hsplit⟩ := hin
  have hlen := congrArg List.length hsplit
  have hpos := List.length_pos_iff.mpr hpat
  rw [List.length_append, List.length_append, List.length_take] at hlen
  apply hfirst a.length (by omega)
  have hwhole : l = a ++ (pat ++ (b ++ l.drop i)) := by
    rw [← List.append_assoc pat, ← List.append_assoc a,
      ← List.append_assoc a, hsplit, List.take_append_drop]
  rw [hwhole, List.drop_left]
  exact List.prefix_append pat _

-- ========================================================= the rules

/-- A pattern that is there at once is found at once. -/
theorem find_self_append (pat b : List α) :
    find pat (pat ++ b) = some 0 := by
  rw [find_eq_some_iff]
  exact ⟨Nat.zero_le _, List.prefix_append pat b,
    fun j hj => absurd hj (Nat.not_lt_zero j)⟩

/-- A stretch in which the pattern starts nowhere is skipped. -/
theorem find_skip {pat a l : List α}
    (hfree : ∀ j < a.length, ¬ pat <+: (a ++ l).drop j) :
    find pat (a ++ l) = (find pat l).map (a.length + ·) := by
  induction a with
  | nil =>
      simp
  | cons x xs ih =>
      have hhere : ¬ pat <+: x :: (xs ++ l) := hfree 0 (by simp)
      rw [List.cons_append, find_cons, if_neg hhere,
        ih fun j hj => hfree (j + 1) (by simpa using hj), Option.map_map]
      congr 1
      funext n
      simp only [Function.comp_apply, List.length_cons]
      omega

/-- A pattern starts at a position only if its first element is there. -/
theorem head_mem_of_prefix_drop {c : α} {p a l : List α} {j : Nat}
    (hj : j < a.length) (hpre : (c :: p) <+: (a ++ l).drop j) :
    c ∈ a := by
  rw [List.drop_append_of_le_length (Nat.le_of_lt hj)] at hpre
  cases hd : a.drop j with
  | nil =>
      have := congrArg List.length hd
      simp only [List.length_drop, List.length_nil] at this
      omega
  | cons y ys =>
      rw [hd, List.cons_append, List.cons_prefix_cons] at hpre
      have hmem : y ∈ a.drop j := by
        rw [hd]
        exact List.mem_cons_self ..
      rw [hpre.1]
      exact List.mem_of_mem_drop hmem

/-- A field without the pattern's first element is skipped. -/
theorem find_skip_of_head {c : α} {p a : List α} (l : List α)
    (hc : c ∉ a) :
    find (c :: p) (a ++ l) = (find (c :: p) l).map (a.length + ·) :=
  find_skip fun _ hj hpre => hc (head_mem_of_prefix_drop hj hpre)

/-- The pattern right behind a field without its first element is found
at the field's end. -/
theorem find_field {c : α} {p a : List α} (b : List α) (hc : c ∉ a) :
    find (c :: p) (a ++ (c :: p ++ b)) = some a.length := by
  rw [find_skip_of_head _ hc, find_self_append]
  rfl

/-- A list without the pattern's first element has no occurrence. -/
theorem find_none_of_head {c : α} {p a : List α} (hc : c ∉ a) :
    find (c :: p) a = none := by
  have h := find_skip_of_head (p := p) [] hc
  rw [List.append_nil] at h
  rw [h]
  rfl

omit [DecidableEq α] in
/-- A pattern that fits into the first part of a list starts it if it
starts the list. -/
private theorem prefix_of_append {pat a l : List α}
    (hlen : pat.length ≤ a.length) (h : pat <+: a ++ l) : pat <+: a :=
  List.prefix_of_prefix_length_le h (List.prefix_append a l) hlen

/-- An occurrence stays the first one whatever is appended behind it. -/
theorem find_append_of_some {pat a : List α} {i : Nat} (l : List α)
    (h : find pat a = some i) : find pat (a ++ l) = some i := by
  obtain ⟨hi, hpre, hfirst⟩ := find_eq_some_iff.mp h
  have hlen := length_of_find h
  rw [find_eq_some_iff]
  refine ⟨?_, ?_, fun j hj hearlier => hfirst j hj ?_⟩
  · rw [List.length_append]
    omega
  · rw [List.drop_append_of_le_length hi]
    exact List.prefix_append_of_prefix hpre
  · rw [List.drop_append_of_le_length (by omega)] at hearlier
    exact prefix_of_append (by rw [List.length_drop]; omega) hearlier

/-- A field without the pattern is skipped with the separator behind it,
if the separator does not occur in the pattern. -/
theorem find_over_separator {pat a : List α} {c : α} (l : List α)
    (hc : c ∉ pat) (hfree : ¬ pat <:+: a) :
    find pat (a ++ c :: l) = (find pat l).map (a.length + 1 + ·) := by
  have hskip := @find_skip _ _ pat (a ++ [c]) l
  rw [List.length_append, List.length_singleton, List.append_assoc] at hskip
  refine hskip fun j hj hpre => ?_
  have hle : j ≤ a.length := Nat.lt_succ_iff.mp hj
  rw [List.drop_append_of_le_length hle] at hpre
  by_cases hlen : pat.length ≤ (a.drop j).length
  · exact hfree ((prefix_of_append hlen hpre).isInfix.trans
      (List.drop_suffix j a).isInfix)
  · -- An occurrence that does not fit reaches over the separator.
    have hwhole : a.drop j ++ [c] <+: a.drop j ++ ([c] ++ l) := by
      rw [← List.append_assoc]
      exact List.prefix_append _ l
    have hin : a.drop j ++ [c] <+: pat := by
      apply List.prefix_of_prefix_length_le hwhole hpre
      rw [List.length_append, List.length_singleton]
      omega
    exact hc (hin.subset (List.mem_append_right _ List.mem_cons_self))

/-- The search for one element: it is nowhere, or at the end of a first
field without it. -/
theorem find_singleton_cases (c : α) (l : List α) :
    (c ∉ l ∧ find [c] l = none)
      ∨ ∃ a b, l = a ++ c :: b ∧ c ∉ a ∧ find [c] l = some a.length := by
  by_cases hmem : c ∈ l
  · obtain ⟨a, b, rfl, ha⟩ := List.eq_append_cons_of_mem hmem
    exact Or.inr ⟨a, b, rfl, ha, find_field b ha⟩
  · exact Or.inl ⟨hmem, find_none_of_head hmem⟩

/-- What stands before an element, or all of a list without it. -/
theorem takeWhile_ne_eq (c : α) (l : List α) :
    l.takeWhile (· ≠ c) = (find [c] l).elim l l.take := by
  rcases find_singleton_cases c l with ⟨hc, hfind⟩
    | ⟨a, b, rfl, ha, hfind⟩
  · have hall : ∀ x ∈ l, decide (x ≠ c) = true :=
      fun x hx => decide_eq_true fun heq => hc (heq ▸ hx)
    rw [hfind, Option.elim_none, List.takeWhile_eq_self_iff.mpr hall]
  · have hall : ∀ x ∈ a, decide (x ≠ c) = true :=
      fun x hx => decide_eq_true fun heq => ha (heq ▸ hx)
    rw [hfind, Option.elim_some, List.take_left,
      List.takeWhile_append_of_pos hall,
      List.takeWhile_cons_of_neg (by simp), List.append_nil]

/-- A separator of two different elements, right behind a field that
does not contain it, is found at the field's end: it cannot start on
the field's last element, whose neighbour is its own first half. -/
theorem find_pair {x y : α} (hxy : x ≠ y) {a : List α} (b : List α)
    (hfree : ¬ [x, y] <:+: a) :
    find [x, y] (a ++ x :: y :: b) = some a.length := by
  induction a with
  | nil => exact find_self_append [x, y] b
  | cons z zs ih =>
      have hhere : ¬ [x, y] <+: z :: (zs ++ x :: y :: b) := by
        intro hpre
        rw [List.cons_prefix_cons] at hpre
        obtain ⟨rfl, hpre⟩ := hpre
        cases zs with
        | nil =>
            rw [List.nil_append, List.cons_prefix_cons] at hpre
            exact hxy hpre.1.symm
        | cons w ws =>
            rw [List.cons_append, List.cons_prefix_cons] at hpre
            obtain ⟨rfl, -⟩ := hpre
            exact hfree (List.prefix_append [x, y] ws).isInfix
      have hrest : ¬ [x, y] <:+: zs := fun hin =>
        hfree (hin.trans (List.suffix_cons z zs).isInfix)
      rw [List.cons_append, find_cons, if_neg hhere, ih hrest]
      rfl

/-- A pattern is not in a field without its first element and something
behind it unless it is in the latter. -/
theorem not_infix_append_of_head {c : α} {p a l : List α} (hc : c ∉ a)
    (hl : ¬ (c :: p) <:+: l) : ¬ (c :: p) <:+: a ++ l := by
  rw [← find_eq_none_iff] at hl ⊢
  rw [find_skip_of_head l hc, hl]
  rfl

section Double

variable {x y : α} {a rest : List α}

/-- The separator twice, right behind a field that does not contain it. -/
theorem find_double_here (hxy : x ≠ y) (hfree : ¬ [x, y] <:+: a) :
    find [x, y, x, y] (a ++ x :: y :: x :: y :: rest) = some a.length := by
  obtain ⟨-, -, hfirst⟩ :=
    find_eq_some_iff.mp (find_pair hxy (x :: y :: rest) hfree)
  refine find_eq_some_iff.mpr ⟨?_, ?_, fun j hj hpre => hfirst j hj ?_⟩
  · rw [List.length_append]
    omega
  · rw [List.drop_left]
    exact List.prefix_append [x, y, x, y] rest
  · exact (List.prefix_append [x, y] [x, y]).trans hpre

/-- A field that does not contain the separator is skipped with the
separator behind it when what follows does not begin with another. -/
theorem find_double_skip (hxy : x ≠ y) (hfree : ¬ [x, y] <:+: a)
    (hrest : ¬ [x, y] <+: rest) :
    find [x, y, x, y] (a ++ x :: y :: rest)
      = (find [x, y, x, y] rest).map (a.length + 2 + ·) := by
  obtain ⟨-, -, hfirst⟩ := find_eq_some_iff.mp (find_pair hxy rest hfree)
  have hskip := @find_skip _ _ [x, y, x, y] (a ++ [x, y]) rest
  rw [List.length_append, List.append_assoc] at hskip
  refine hskip fun j hj hpre => ?_
  have htwo : [x, y] <+: (a ++ x :: y :: rest).drop j :=
    (List.prefix_append [x, y] [x, y]).trans hpre
  rcases Nat.lt_trichotomy j a.length with hlt | rfl | hgt
  · exact hfirst j hlt htwo
  · rw [List.drop_left] at hpre
    simp only [List.cons_append, List.nil_append, List.cons_prefix_cons,
      true_and] at hpre
    exact hrest (by simpa only [List.cons_prefix_cons, true_and] using hpre)
  · -- The second half of the separator is not its first half.
    obtain rfl : j = a.length + 1 := by
      simp only [List.length_cons, List.length_nil] at hj
      omega
    rw [← List.drop_drop, List.drop_left] at htwo
    simp only [List.drop_succ_cons, List.drop_zero,
      List.cons_prefix_cons] at htwo
    exact hxy htwo.1

end Double

/-- The search from the end of a field is the search of what is behind
it. -/
theorem findFrom_append (pat a l : List α) :
    findFrom pat (a ++ l) a.length = (find pat l).map (a.length + ·) := by
  rw [findFrom, List.drop_left]

/-- Searching from the start is searching. -/
theorem findFrom_zero (pat l : List α) : findFrom pat l 0 = find pat l := by
  have hid : (fun n => 0 + n) = (id : Nat → Nat) := by
    funext n
    simp
  rw [findFrom, List.drop_zero, hid, Option.map_id]
  rfl

-- ================================================= around an occurrence

/-- A list, cut at the first occurrence of a pattern. -/
structure FirstAt (pat l before after : List α) : Prop where
  split : l = before ++ (pat ++ after)
  first : ∀ j < before.length, ¬ pat <+: l.drop j

/-- The search finds the end of what stands before it. -/
theorem FirstAt.find {pat l before after : List α}
    (h : FirstAt pat l before after) :
    find pat l = some before.length := by
  apply find_eq_some_iff.mpr
  refine ⟨?_, ?_, h.first⟩
  · rw [h.split, List.length_append]
    omega
  · rw [h.split, List.drop_left]
    exact List.prefix_append pat after

/-- What the search finds is a cut. -/
theorem firstAt_of_find {pat l : List α} {i : Nat}
    (h : Scan.find pat l = some i) :
    FirstAt pat l (l.take i) (l.drop (i + pat.length)) := by
  obtain ⟨hi, ⟨after, hafter⟩, hfirst⟩ := find_eq_some_iff.mp h
  have hdrop : l.drop (i + pat.length) = after := by
    rw [← List.drop_drop, ← hafter, List.drop_left]
  have hbefore : (l.take i).length = i := by
    rw [List.length_take]
    omega
  refine ⟨?_, fun j hj => hfirst j (hbefore ▸ hj)⟩
  rw [hdrop, hafter, List.take_append_drop]

theorem exists_firstAt_of_find {pat l : List α} {i : Nat}
    (h : Scan.find pat l = some i) :
    ∃ before after, FirstAt pat l before after ∧ before.length = i := by
  refine ⟨_, _, firstAt_of_find h, ?_⟩
  have hle := (find_eq_some_iff.mp h).1
  rw [List.length_take]
  omega

omit [DecidableEq α] in
/-- What is left at a cut. -/
theorem FirstAt.drop {pat l before after : List α}
    (h : FirstAt pat l before after) :
    l.drop before.length = pat ++ after := by
  rw [h.split, List.drop_left]

omit [DecidableEq α] in
/-- What is left behind it. -/
theorem FirstAt.drop_behind {pat l before after : List α}
    (h : FirstAt pat l before after) :
    l.drop (before.length + pat.length) = after := by
  rw [← List.drop_drop, h.drop, List.drop_left]

omit [DecidableEq α] in
/-- What stands before it. -/
theorem FirstAt.take {pat l before after : List α}
    (h : FirstAt pat l before after) : l.take before.length = before := by
  rw [h.split, List.take_left]

/-- There is one cut at most. -/
theorem FirstAt.unique {pat l before after before' after' : List α}
    (h : FirstAt pat l before after) (h' : FirstAt pat l before' after') :
    before = before' ∧ after = after' := by
  have hlen : before.length = before'.length :=
    Option.some.inj (h.find.symm.trans h'.find)
  obtain ⟨hbefore, hrest⟩ :=
    List.append_inj (h.split.symm.trans h'.split) hlen
  exact ⟨hbefore, List.append_cancel_left hrest⟩

/-- Without an occurrence there is none. -/
theorem not_firstAt_of_find {pat l : List α} (h : Scan.find pat l = none)
    (before after : List α) : ¬ FirstAt pat l before after := by
  intro hcut
  cases h.symm.trans hcut.find

end Scan
