/-
A sequence whose keys never go back, cut up by its keys.

The elements of one key stand together in it, so its sections, one key
after the other, are the sequence again. The order need not be one: all
that is asked is that no element stands behind one of a later key, and
that the keys are told in their order.
-/
import Mathlib.Data.List.Basic

namespace Sections

variable {α κ : Type} [DecidableEq κ] {later : κ → κ → Prop}
  {key : α → κ}

/-- The elements of a key, in their order. -/
def ofKey (key : α → κ) (l : List α) (k : κ) : List α :=
  l.filter fun a => key a = k

/-- No element stands in front of one of an earlier key. -/
def Forward (later : κ → κ → Prop) (key : α → κ) (l : List α) : Prop :=
  l.Pairwise fun a b => ¬ later (key b) (key a)

omit [DecidableEq κ] in
theorem forward_snoc {l : List α} {a : α} :
    Forward later key (l ++ [a])
      ↔ Forward later key l ∧ ∀ b ∈ l, ¬ later (key a) (key b) := by
  unfold Forward
  rw [List.pairwise_append]
  constructor
  · rintro ⟨hl, -, hlast⟩
    exact ⟨hl, fun b hb => hlast b hb a (List.mem_singleton.mpr rfl)⟩
  · rintro ⟨hl, hlast⟩
    refine ⟨hl, List.pairwise_singleton _ _, fun b hb c hc => ?_⟩
    rw [List.mem_singleton.mp hc]
    exact hlast b hb

omit [DecidableEq κ] in
/-- Two selections that differ in elements with nothing to them. -/
theorem flatMap_filter_congr {β : Type} {p q : α → Bool} {f : α → List β}
    {l : List α} (h : ∀ a ∈ l, p a ≠ q a → f a = []) :
    (l.filter p).flatMap f = (l.filter q).flatMap f := by
  induction l with
  | nil => rfl
  | cons a rest ih =>
      have hrest := ih fun b hb => h b (List.mem_cons_of_mem _ hb)
      have ha := h a List.mem_cons_self
      cases hp : p a with
      | true =>
          rw [List.filter_cons_of_pos hp, List.flatMap_cons, hrest]
          cases hq : q a with
          | true => rw [List.filter_cons_of_pos hq, List.flatMap_cons]
          | false =>
              rw [List.filter_cons_of_neg (by simp [hq]),
                ha (by simp [hp, hq]), List.nil_append]
      | false =>
          rw [List.filter_cons_of_neg (by simp [hp]), hrest]
          cases hq : q a with
          | true =>
              rw [List.filter_cons_of_pos hq, List.flatMap_cons,
                ha (by simp [hp, hq]), List.nil_append]
          | false => rw [List.filter_cons_of_neg (by simp [hq])]

/-- The first key's elements stand in front. -/
theorem ofKey_append_rest {k : κ} {l : List α}
    (hforward : Forward later key l)
    (hfirst : ∀ a ∈ l, key a ≠ k → later k (key a)) :
    ofKey key l k ++ l.filter (fun a => key a ≠ k) = l := by
  induction l with
  | nil => rfl
  | cons a rest ih =>
      obtain ⟨hhead, hrest⟩ := List.pairwise_cons.mp hforward
      have hsplit := ih hrest fun b hb =>
        hfirst b (List.mem_cons_of_mem _ hb)
      by_cases hk : key a = k
      · have hkeep : ofKey key (a :: rest) k = a :: ofKey key rest k :=
          List.filter_cons_of_pos (by simpa using hk)
        rw [hkeep, List.filter_cons_of_neg (by simpa using hk),
          List.cons_append, hsplit]
      · -- behind an element of another key there is none of this one
        have hnone : ofKey key (a :: rest) k = [] := by
          refine List.filter_eq_nil_iff.mpr fun b hb => ?_
          intro hkey
          have hb' : key b = k := by simpa using hkey
          rcases List.mem_cons.mp hb with rfl | hmem
          · exact hk hb'
          · exact hhead b hmem
              (hb'.symm ▸ hfirst a List.mem_cons_self hk)
        rw [hnone, List.nil_append]
        refine List.filter_eq_self.mpr fun b hb => ?_
        have hother : key b ≠ k := by
          intro hkey
          have hmem : b ∈ ofKey key (a :: rest) k :=
            List.mem_filter.mpr ⟨hb, by simpa using hkey⟩
          rw [hnone] at hmem
          exact List.not_mem_nil hmem
        simpa using hother

/-- The sections of all keys, in the keys' order, are the sequence. -/
theorem flatMap_ofKey (hirrefl : ∀ k, ¬ later k k) {keys : List κ} :
    ∀ {l : List α}, keys.Pairwise later → Forward later key l →
      (∀ a ∈ l, key a ∈ keys) → keys.flatMap (ofKey key l) = l := by
  induction keys with
  | nil =>
      intro l _ _ hkeys
      rw [List.eq_nil_iff_forall_not_mem.mpr fun a ha =>
        List.not_mem_nil (hkeys a ha)]
      rfl
  | cons k keys ih =>
      intro l hsorted hforward hkeys
      obtain ⟨hfirst, hsorted'⟩ := List.pairwise_cons.mp hsorted
      have hbehind : ∀ a ∈ l, key a ≠ k → key a ∈ keys := fun a ha hne =>
        (List.mem_cons.mp (hkeys a ha)).resolve_left hne
      have hrest := ih (l := l.filter fun a => key a ≠ k) hsorted'
        (hforward.sublist List.filter_sublist) fun a ha => by
          obtain ⟨hmem, hne⟩ := List.mem_filter.mp ha
          exact hbehind a hmem (by simpa using hne)
      have hsame : keys.flatMap (ofKey key (l.filter fun a => key a ≠ k))
          = keys.flatMap (ofKey key l) := by
        refine List.flatMap_congr fun k' hk' => ?_
        unfold ofKey
        rw [List.filter_filter]
        refine List.filter_congr fun a _ => ?_
        by_cases hkey : key a = k'
        · have hne : k' ≠ k := fun h => hirrefl k (h ▸ hfirst k' hk')
          simp [hkey, hne]
        · simp [hkey]
      rw [List.flatMap_cons, ← hsame, hrest]
      exact ofKey_append_rest hforward fun a ha hne =>
        hfirst _ (hbehind a ha hne)

end Sections
