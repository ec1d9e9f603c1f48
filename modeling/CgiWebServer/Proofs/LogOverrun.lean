/-
What the ring drops when it is overrun, call by call.

An index is written over by the push that comes `logBufferSize` pushes
behind it, so the last `logBufferSize` indices still find their entries
(`Recorded.shows`). A pop that finds that many pending or more goes on one
index behind the oldest of them, so what it drops is what was written
over and one entry more: the one at `head - logBufferSize`
(`Recorded.overrun_drops`).
-/
import CgiWebServer.Lib.Steps
import CgiWebServer.Log.Logger

namespace CgiWebServer

namespace LogRing

variable {ε : Type}

-- ================================================================ the calls

/-- A call. -/
inductive Call (ε : Type)
  | push (e : ε)
  | pop

def Call.isPop : Call ε → Bool
  | .push _ => false
  | .pop => true

/-- A `pop` that was made: the head and the tail it was called at, the
tail it left, and its answer. -/
structure Drop (ε : Type) where
  head : Nat
  before : Nat
  after : Nat
  entry : Option ε

/-- The ring behind some calls, the entries in the order of their
pushes, and the pops. -/
structure History (ε : Type) where
  ring : LogRing ε := {}
  pushed : List ε := []
  pops : List (Drop ε) := []

namespace History

def call (h : History ε) : Call ε → History ε
  | .push e =>
      { h with ring := h.ring.push e, pushed := h.pushed ++ [e] }
  | .pop =>
      let (entry, ring) := h.ring.pop
      { h with
        ring := ring
        pops := h.pops ++ [⟨h.ring.head, h.ring.tail, ring.tail, entry⟩] }

/-- What the pops have returned. -/
def returned (h : History ε) : List ε := h.pops.filterMap (·.entry)

end History

/-- A sequence of calls on a new ring. -/
def run (calls : List (Call ε)) : History ε :=
  calls.foldl History.call {}

theorem run_snoc (calls : List (Call ε)) (c : Call ε) :
    run (calls ++ [c]) = (run calls).call c := by
  rw [run, List.foldl_append]
  rfl

/-- The pops return pushed entries in the order of their pushes, none
twice; they answer null only where nothing is pending; and an index that
a pop moves past without returning it had at least `logBufferSize`
further pushes behind it. -/
structure DropsOnlyOverwritten (h : History ε) : Prop where
  inOrder : h.returned.Sublist h.pushed
  nonnull : ∀ p ∈ h.pops, p.before < p.head → p.entry ≠ none
  overwritten : ∀ p ∈ h.pops, ∀ i, p.before ≤ i → i + 1 < p.after →
    i + 1 + logBufferSize ≤ p.head

/-- No `pop` is called while `logBufferSize` entries or more are
pending. -/
def NeverOverrun (calls : List (Call ε)) : Prop :=
  Steps.Every (fun before c => c.isPop = true →
    (run before).ring.head - (run before).ring.tail < logBufferSize) calls

-- ============================================================ the invariant

/-- What every sequence of calls keeps. -/
structure Recorded (h : History ε) : Prop where
  head : h.pushed.length = h.ring.head
  tail_le : h.ring.tail ≤ h.ring.head
  shows : ∀ i, h.ring.tail ≤ i → i < h.ring.head →
    h.ring.head ≤ i + logBufferSize →
    h.ring.slots.get i = h.pushed[i]?
  inOrder : h.returned.Sublist (h.pushed.take h.ring.tail)
  nonnull : ∀ p ∈ h.pops, p.before < p.head → p.entry ≠ none

theorem recorded_start : Recorded ({} : History ε) where
  head := rfl
  tail_le := Nat.le_refl 0
  shows := fun i _ hi => absurd hi (Nat.not_lt_zero i)
  inOrder := List.Sublist.refl _
  nonnull := fun _ hp => absurd hp List.not_mem_nil

/-- The tail a pop goes on with: at most one size behind the head. -/
theorem popTail_bounds (r : LogRing ε) (h : r.tail ≤ r.head) :
    r.tail ≤ r.popTail ∧ r.popTail ≤ r.head
      ∧ r.head < r.popTail + logBufferSize := by
  have hsize : 0 < logBufferSize := by decide
  unfold popTail
  split <;> omega

section Step

variable {h : History ε}

theorem Recorded.push (hrec : Recorded h) (e : ε) :
    Recorded (h.call (.push e)) := by
  have hhead := hrec.head
  have hsize : 0 < logBufferSize := by decide
  refine {
    head := by
      show (h.pushed ++ [e]).length = h.ring.head + 1
      rw [List.length_append, hhead]
      rfl
    tail_le := Nat.le_succ_of_le hrec.tail_le
    shows := ?_
    inOrder := ?_
    nonnull := hrec.nonnull }
  · intro i hi hi' hlap
    have htail : h.ring.tail ≤ i := hi
    have hle : i < h.ring.head + 1 := hi'
    have hnear : h.ring.head + 1 ≤ i + logBufferSize := hlap
    show (h.ring.slots.put h.ring.head (some e)).get i
      = (h.pushed ++ [e])[i]?
    by_cases hnew : i = h.ring.head
    · subst hnew
      rw [Ring.Slots.get_put_self, ← hhead, List.getElem?_concat_length]
    · rw [Ring.Slots.get_put_other _ hnew (by omega) (by omega),
        List.getElem?_append_left (by omega)]
      exact hrec.shows i htail (by omega) (by omega)
  · show h.returned.Sublist ((h.pushed ++ [e]).take h.ring.tail)
    rw [List.take_append_of_le_length (hhead ▸ hrec.tail_le)]
    exact hrec.inOrder

/-- A pop where something is pending returns the entry of the tail it
goes on with. -/
theorem Recorded.pop_some (hrec : Recorded h)
    (hpending : h.ring.tail < h.ring.head) :
    ∃ e, h.pushed[h.ring.popTail]? = some e
      ∧ h.ring.pop = (some e,
          { h.ring with
            slots := h.ring.slots.put h.ring.popTail none
            tail := h.ring.popTail + 1 }) := by
  have hbounds := popTail_bounds h.ring hrec.tail_le
  have hlt : h.ring.popTail < h.ring.head := by
    have hsize : 1 < logBufferSize := by decide
    unfold popTail
    split <;> omega
  have hentry := List.getElem?_eq_getElem
    (show h.ring.popTail < h.pushed.length from hrec.head ▸ hlt)
  refine ⟨_, hentry, ?_⟩
  rw [pop, if_neg (Nat.not_le.mpr hlt),
    hrec.shows _ hbounds.1 hlt (by omega), hentry]

/-- A pop where nothing is pending answers null and stays. -/
theorem Recorded.pop_none (hrec : Recorded h)
    (hempty : ¬ h.ring.tail < h.ring.head) :
    h.ring.pop = (none, h.ring) := by
  have heq : h.ring.tail = h.ring.head := by
    have := hrec.tail_le
    omega
  have hstay : h.ring.popTail = h.ring.tail := by
    have hsize : 0 < logBufferSize := by decide
    unfold popTail
    rw [if_neg (by omega)]
  rw [pop, hstay, if_pos (Nat.le_of_eq heq.symm)]

theorem Recorded.pop (hrec : Recorded h) : Recorded (h.call .pop) := by
  have hbounds := popTail_bounds h.ring hrec.tail_le
  by_cases hpending : h.ring.tail < h.ring.head
  · obtain ⟨e, hentry, hpop⟩ := hrec.pop_some hpending
    have hlt : h.ring.popTail < h.ring.head := by
      rw [← hrec.head]
      exact (List.getElem?_eq_some_iff.mp hentry).1
    unfold History.call
    rw [hpop]
    refine {
      head := hrec.head
      tail_le := hlt
      shows := ?_
      inOrder := ?_
      nonnull := ?_ }
    -- The emptied slot is of no index from the new tail on.
    · intro i hi hi' hlap
      have hfrom : h.ring.popTail + 1 ≤ i := hi
      have hbelow : i < h.ring.head := hi'
      show (h.ring.slots.put h.ring.popTail none).get i = _
      rw [Ring.Slots.get_put_other _ (by omega) (by omega) (by omega)]
      exact hrec.shows i (by omega) hbelow hlap
    · show (List.filterMap _ (h.pops ++ [_])).Sublist
        (h.pushed.take (h.ring.popTail + 1))
      rw [List.filterMap_append, List.take_add_one, hentry]
      apply List.Sublist.append
      · exact hrec.inOrder.trans
          (List.take_sublist_take_left hbounds.1)
      · exact List.Sublist.refl _
    · intro p hp hbefore
      rcases List.mem_append.mp hp with hrec' | hlast
      · exact hrec.nonnull p hrec' hbefore
      · rw [List.mem_singleton.mp hlast]
        exact Option.some_ne_none e
  · unfold History.call
    rw [hrec.pop_none hpending]
    refine { hrec with inOrder := ?_, nonnull := ?_ }
    · show (List.filterMap _ (h.pops ++ [_])).Sublist _
      rw [List.filterMap_append]
      show (List.filterMap _ h.pops ++ []).Sublist _
      rw [List.append_nil]
      exact hrec.inOrder
    · intro p hp hbefore
      rcases List.mem_append.mp hp with hrec' | hlast
      · exact hrec.nonnull p hrec' hbefore
      · rw [List.mem_singleton.mp hlast] at hbefore
        exact absurd hbefore hpending

/-- Every sequence of calls keeps it. -/
theorem recorded_run (calls : List (Call ε)) : Recorded (run calls) := by
  induction calls using List.reverseRecOn with
  | nil => exact recorded_start
  | append_singleton calls c ih =>
      rw [run_snoc]
      cases c with
      | push e => exact ih.push e
      | pop => exact ih.pop

-- ================================================================ the drops

/-- The tail a pop leaves where fewer entries are pending than the ring
has slots: nothing is passed over. -/
theorem Recorded.pop_tail_of_room (hrec : Recorded h)
    (hroom : h.ring.head - h.ring.tail < logBufferSize) :
    h.ring.pop.2.tail ≤ h.ring.tail + 1 := by
  by_cases hpending : h.ring.tail < h.ring.head
  · obtain ⟨e, -, hpop⟩ := hrec.pop_some hpending
    have hstay : h.ring.popTail = h.ring.tail := if_neg (by omega)
    rw [hpop, ← hstay]
  · rw [hrec.pop_none hpending]
    exact Nat.le_succ _

/-- Where that many are pending, the entry at `head - logBufferSize` is
passed over, though it has not been written over. -/
theorem Recorded.overrun_drops (hrec : Recorded h)
    (hover : logBufferSize ≤ h.ring.head - h.ring.tail) :
    h.ring.tail ≤ h.ring.head - logBufferSize
      ∧ h.ring.head - logBufferSize + 1 < h.ring.pop.2.tail
      ∧ h.ring.head < h.ring.head - logBufferSize + 1 + logBufferSize := by
  have hsize : 0 < logBufferSize := by decide
  have htail := hrec.tail_le
  obtain ⟨e, -, hpop⟩ := hrec.pop_some (by omega)
  have hmoved : h.ring.popTail = h.ring.head - logBufferSize + 1 :=
    if_pos hover
  rw [hpop]
  dsimp only
  rw [hmoved]
  omega

/-- A pop passes nothing over that is still there exactly where fewer
entries are pending than the ring has slots. -/
theorem Recorded.passes_iff (hrec : Recorded h) :
    (∀ i, h.ring.tail ≤ i → i + 1 < h.ring.pop.2.tail →
        i + 1 + logBufferSize ≤ h.ring.head)
      ↔ h.ring.head - h.ring.tail < logBufferSize := by
  constructor
  · intro hpasses
    by_contra hover
    obtain ⟨hfrom, hpassed, hkept⟩ :=
      hrec.overrun_drops (Nat.not_lt.mp hover)
    exact absurd (hpasses _ hfrom hpassed) (Nat.not_le.mpr hkept)
  · intro hroom i hfrom hpassed
    have hstay := hrec.pop_tail_of_room hroom
    omega

end Step

-- ========================================================= what is dropped

/-- One more call drops nothing that is still there. -/
theorem dropsOnlyOverwritten_snoc (calls : List (Call ε)) (c : Call ε) :
    DropsOnlyOverwritten (run (calls ++ [c]))
      ↔ DropsOnlyOverwritten (run calls)
        ∧ (c.isPop = true →
          (run calls).ring.head - (run calls).ring.tail < logBufferSize) := by
  have hrec := recorded_run calls
  have hnext := recorded_run (calls ++ [c])
  rw [run_snoc] at hnext ⊢
  constructor
  · intro h
    cases c with
    | push e =>
        refine ⟨{
          inOrder := hrec.inOrder.trans (List.take_sublist _ _)
          nonnull := hrec.nonnull
          overwritten := h.overwritten }, fun hpop => by cases hpop⟩
    | pop =>
        refine ⟨{
          inOrder := hrec.inOrder.trans (List.take_sublist _ _)
          nonnull := hrec.nonnull
          overwritten := fun p hp =>
            h.overwritten p (List.mem_append_left _ hp) }, fun _ => ?_⟩
        -- The pop's own pass is the last one recorded; it drops nothing
        -- only where the ring was not overrun.
        exact hrec.passes_iff.mp (h.overwritten _
          (List.mem_append_right _ (List.mem_singleton.mpr rfl)))
  · rintro ⟨h, hroom⟩
    refine {
      inOrder := hnext.inOrder.trans (List.take_sublist _ _)
      nonnull := hnext.nonnull
      overwritten := ?_ }
    cases c with
    | push e => exact h.overwritten
    | pop =>
        intro p hp
        rcases List.mem_append.mp hp with hbefore | hlast
        · exact h.overwritten p hbefore
        · rw [List.mem_singleton.mp hlast]
          exact hrec.passes_iff.mpr (hroom rfl)

/-- The ring drops only what was written over exactly where no pop is
called on an overrun ring. -/
theorem ring_drops_iff (calls : List (Call ε)) :
    DropsOnlyOverwritten (run calls) ↔ NeverOverrun calls := by
  apply Steps.iff_every (Q := fun calls => DropsOnlyOverwritten (run calls))
  · exact {
      inOrder := List.Sublist.refl _
      nonnull := fun _ hp => absurd hp List.not_mem_nil
      overwritten := fun _ hp => absurd hp List.not_mem_nil }
  · exact dropsOnlyOverwritten_snoc

/-- The indices from zero on, pushed one after the other. -/
def pushes (n : Nat) : List (Call Nat) := (List.range n).map .push

theorem ring_pushes (n : Nat) :
    (run (pushes n)).ring.head = n ∧ (run (pushes n)).ring.tail = 0 := by
  induction n with
  | zero => exact ⟨rfl, rfl⟩
  | succ n ih =>
      have hnext : run (pushes (n + 1)) = (run (pushes n)).call (.push n) := by
        rw [pushes, List.range_succ, List.map_append, run, List.foldl_append]
        rfl
      rw [hnext]
      exact ⟨congrArg (· + 1) ih.1, ih.2⟩

/-- A ring that is just full drops its oldest entry at the next pop. -/
theorem full_ring_drops_one :
    ¬ DropsOnlyOverwritten (run (pushes logBufferSize ++ [.pop])) := by
  obtain ⟨hhead, htail⟩ := ring_pushes logBufferSize
  rw [dropsOnlyOverwritten_snoc, hhead, htail]
  rintro ⟨-, hroom⟩
  exact absurd (hroom rfl) (Nat.lt_irrefl _)

end LogRing

end CgiWebServer
