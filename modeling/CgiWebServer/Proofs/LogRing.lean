/-
What concurrent pushes and pops keep.

# The hole

`push` publishes its index before it stores: `head` moves first. A pop
that finds `head` ahead of its tail reads the slot at once, and where the
push of that index has not stored yet, it answers null and has moved
`tail` past the entry, which is lost for good. The drain of
`stopAndFlush` takes this null for the end.

# Without it

As long as every slot is stored into before it is emptied, the ring shows
the completed entries from the first one not returned on (`Sound.shows`),
an index below `head` has been stored under or is held by exactly one
push (`Sound.accounted`), and what was returned is what was reserved, in
order. The first pop that meets an unfilled slot is on record ever after
(`Spoiled`), so the two cases tell each other apart.
-/
import CgiWebServer.Log.LoggerThreads

namespace CgiWebServer

namespace LogRing

open Interleave

variable {ε : Type}

-- ======================================================== what is asked

/-- The pushes leave fewer entries pending than the ring has slots. -/
def KeepsRoom (sys : Sys (Shared ε) (Thread ε))
    (x : Action (Caller ε) Move) : Prop :=
  ∀ i, x = .move i .fetchAdd →
    sys.shared.ring.head + 1 - sys.shared.ring.tail < logBufferSize

/-- What a call of `pop` is to do, where `reserved` are the entries by
index: it returns the entry of the tail and moves on by one, or it
answers null, stays, and leaves no completed push behind. -/
def Popped.Right (reserved : List ε) (p : Popped ε) : Prop :=
  (∃ e, p.entry = some e ∧ reserved[p.before]? = some e
      ∧ p.after = p.before + 1)
    ∨ (p.entry = none ∧ p.after = p.before ∧ p.waiting = false)

/-- Nothing is lost: every pop did right, they returned the entries by
their indices, none skipped and none twice, and a completed push that was
not returned is in its slot. -/
structure Lossless (s : Shared ε) : Prop where
  right : ∀ p ∈ s.pops, p.Right s.reserved
  inOrder : s.returned = s.reserved.take s.returned.length
  kept : ∀ i ∈ s.completed, s.returned.length ≤ i →
    ∃ e, s.reserved[i]? = some e ∧ s.ring.slots.get i = some e

-- ======================================================== the invariant

/-- The push holds index `pos` and has not stored. -/
def holds (pos : Nat) : Thread ε → Bool
  | .producer _ (.holding p) => p = pos
  | _ => false

/-- The entry a push holds is the one its index was given to. -/
def Owns (reserved : List ε) : Thread ε → Prop
  | .producer e (.holding pos) => reserved[pos]? = some e
  | _ => True

/-- The consumer's registers against the ring's: what is returned ends at
the tail, or one before it while the entry is being moved out. -/
def PopPhase.Fits (tail head returned : Nat) : PopPhase → Prop
  | .idle => returned = tail
  | .loaded before currTail =>
      before = tail ∧ currTail = tail ∧ returned = tail ∧ tail < head
  | .advanced before currTail =>
      before = currTail ∧ currTail + 1 = tail ∧ returned = currTail

/-- The completed entries by index. -/
def Shared.content (s : Shared ε) (i : Nat) : Option ε :=
  if i ∈ s.completed then s.reserved[i]? else none

structure Sound (s : Shared ε) (threads : List (Thread ε)) : Prop where
  head : s.reserved.length = s.ring.head
  tail_le : s.ring.tail ≤ s.ring.head
  room : s.ring.head < s.ring.tail + logBufferSize
  phase : s.consumer.Fits s.ring.tail s.ring.head s.returned.length
  accounted : ∀ pos, threads.countP (holds pos) + s.completed.count pos
    = if pos < s.ring.head then 1 else 0
  owns : ∀ t ∈ threads, Owns s.reserved t
  past : ∀ pos < s.returned.length, pos ∈ s.completed
  shows : s.ring.slots.Shows s.returned.length s.content
  right : ∀ p ∈ s.pops, p.Right s.reserved
  inOrder : s.returned = s.reserved.take s.returned.length
  filled : ∀ p ∈ s.pops, p.unfilled = false

namespace Sound

variable {s : Shared ε} {threads : List (Thread ε)}

/-- Completed pushes have indices below `head`. -/
theorem lt_head (h : Sound s threads) {pos : Nat}
    (hpos : pos ∈ s.completed) : pos < s.ring.head := by
  have hone := List.count_pos_iff.mpr hpos
  have hcount := h.accounted pos
  by_contra hge
  rw [if_neg hge] at hcount
  omega

/-- What was returned ends at the tail or one before it. -/
theorem returned_le (h : Sound s threads) :
    s.returned.length ≤ s.ring.tail
      ∧ s.ring.tail ≤ s.returned.length + 1 := by
  have hphase := h.phase
  cases hc : s.consumer with
  | idle =>
      rw [hc] at hphase
      have heq : s.returned.length = s.ring.tail := hphase
      omega
  | loaded before currTail =>
      rw [hc] at hphase
      obtain ⟨-, -, heq, -⟩ := hphase
      omega
  | advanced before currTail =>
      rw [hc] at hphase
      obtain ⟨-, hnext, heq⟩ := hphase
      omega

theorem lossless (h : Sound s threads) : Lossless s where
  right := h.right
  inOrder := h.inOrder
  kept := by
    intro i hi hfrom
    have hlt := h.lt_head hi
    have hret := h.returned_le
    have hroom := h.room
    have hget := h.shows i hfrom (by omega)
    have hsome := List.getElem?_eq_getElem (l := s.reserved) (i := i)
      (h.head ▸ hlt)
    rw [Shared.content, if_pos hi, hsome] at hget
    exact ⟨_, hsome, hget⟩

end Sound

/-- A pop answered null and moved the tail. -/
def Spoiled (s : Shared ε) : Prop :=
  ∃ p ∈ s.pops, p.unfilled = true ∧ p.entry = none
    ∧ p.after ≠ p.before

theorem Spoiled.not_lossless {s : Shared ε} (h : Spoiled s) :
    ¬ Lossless s := by
  obtain ⟨p, hp, -, hnull, hmoved⟩ := h
  intro hl
  rcases hl.right p hp with ⟨e, hsome, -⟩ | ⟨-, hstay, -⟩
  · exact absurd (hnull.symm.trans hsome) (by simp)
  · exact hmoved hstay

theorem Spoiled.mono {s s' : Shared ε} (h : Spoiled s)
    (hpops : ∃ more, s'.pops = s.pops ++ more) : Spoiled s' := by
  obtain ⟨p, hp, hrest⟩ := h
  obtain ⟨more, hmore⟩ := hpops
  exact ⟨p, hmore ▸ List.mem_append_left _ hp, hrest⟩

-- ============================================================== the moves

theorem sound_start : Sound ({} : Shared ε) [] where
  head := rfl
  tail_le := Nat.le_refl 0
  room := Nat.succ_pos _
  phase := rfl
  accounted := fun _ => rfl
  owns := fun _ ht => absurd ht (List.not_mem_nil)
  past := fun pos hpos => absurd hpos (Nat.not_lt_zero pos)
  shows := Ring.Slots.shows_empty 0
  right := fun _ hp => absurd hp (List.not_mem_nil)
  inOrder := rfl
  filled := fun _ hp => absurd hp (List.not_mem_nil)

section Moves

variable {s : Shared ε} {threads : List (Thread ε)}

theorem sound_arrive (h : Sound s threads) (r : Caller ε) :
    Sound s (threads ++ [program.start r]) := by
  refine { h with accounted := fun pos => ?_, owns := ?_ }
  · rw [count_arrive _ _ (by cases r <;> rfl)]
    exact h.accounted pos
  · exact forall_arrive h.owns (by cases r <;> exact trivial)

/-- A right answer stays right when more entries are reserved. -/
theorem Popped.Right.reserve {reserved : List ε} {p : Popped ε}
    (h : p.Right reserved) (e : ε) : p.Right (reserved ++ [e]) := by
  rcases h with ⟨x, hentry, hreserved, hafter⟩ | hnull
  · obtain ⟨hlt, -⟩ := List.getElem?_eq_some_iff.mp hreserved
    exact Or.inl ⟨x, hentry,
      (List.getElem?_append_left hlt).trans hreserved, hafter⟩
  · exact Or.inr hnull

/-- So does what a push holds. -/
theorem Owns.reserve {reserved : List ε} {t : Thread ε}
    (h : Owns reserved t) (e : ε) : Owns (reserved ++ [e]) t := by
  rcases t with ⟨x, _ | pos | _⟩ | _
  · trivial
  · have hreserved : reserved[pos]? = some x := h
    obtain ⟨hlt, -⟩ := List.getElem?_eq_some_iff.mp hreserved
    exact (List.getElem?_append_left hlt).trans hreserved
  · trivial
  · trivial

/-- The consumer's registers know nothing of new indices. -/
theorem PopPhase.Fits.fetchAdd {phase : PopPhase} {tail head n : Nat}
    (h : phase.Fits tail head n) : phase.Fits tail (head + 1) n := by
  cases phase with
  | idle => exact h
  | loaded before currTail =>
      obtain ⟨hbefore, hcurr, hn, hlt⟩ := h
      exact ⟨hbefore, hcurr, hn, Nat.lt_succ_of_lt hlt⟩
  | advanced before currTail => exact h

/-- The new index is accounted for by the push that holds it. -/
theorem accounted_fetchAdd (h : Sound s threads) {i : Nat} {e : ε}
    (ht : threads[i]? = some (.producer e .fresh)) (pos : Nat) :
    (threads.set i (.producer e (.holding s.ring.head))).countP (holds pos)
        + s.completed.count pos
      = if pos < s.ring.head + 1 then 1 else 0 := by
  have hset := count_set (holds pos) ht (.producer e (.holding s.ring.head))
  have hcount := h.accounted pos
  by_cases hpos : s.ring.head = pos
  · subst hpos
    simp only [holds, decide_true, Bool.toNat_true, Bool.toNat_false]
      at hset
    rw [if_neg (Nat.lt_irrefl _)] at hcount
    rw [if_pos (Nat.lt_succ_self _)]
    omega
  · simp only [holds, hpos, decide_false, Bool.toNat_false] at hset
    by_cases hlt : pos < s.ring.head
    · rw [if_pos hlt] at hcount
      rw [if_pos (by omega)]
      omega
    · rw [if_neg hlt] at hcount
      rw [if_neg (by omega)]
      omega

theorem sound_fetchAdd (h : Sound s threads) {i : Nat} {e : ε}
    (ht : threads[i]? = some (.producer e .fresh))
    (hroom : s.ring.head + 1 - s.ring.tail < logBufferSize) :
    Sound (s.fetchAdd e)
      (threads.set i (.producer e (.holding s.ring.head))) := by
  have hhead := h.head
  have htail := h.tail_le
  have hret := h.returned_le
  have hlen : (s.fetchAdd e).reserved.length = s.ring.head + 1 := by
    rw [Shared.fetchAdd, List.length_append, hhead, List.length_singleton]
  refine ⟨hlen, ?_, ?_, h.phase.fetchAdd, accounted_fetchAdd h ht, ?_,
    h.past, ?_, ?_, ?_, h.filled⟩
  · show s.ring.tail ≤ s.ring.head + 1
    omega
  · show s.ring.head + 1 < s.ring.tail + logBufferSize
    omega
  · refine forall_set (fun t htmem => (h.owns t htmem).reserve e) ?_
    show (s.reserved ++ [e])[s.ring.head]? = some e
    rw [← hhead, List.getElem?_concat_length]
  -- The reserved slot is not completed yet, so the ring shows the same
  -- content.
  · refine h.shows.congr fun pos hfrom hto => ?_
    show s.content pos
      = if pos ∈ s.completed then (s.reserved ++ [e])[pos]? else none
    unfold Shared.content
    by_cases hpos : pos ∈ s.completed
    · rw [if_pos hpos, if_pos hpos,
        List.getElem?_append_left (hhead ▸ h.lt_head hpos)]
    · rw [if_neg hpos, if_neg hpos]
  · intro p hp
    exact (h.right p hp).reserve e
  · show s.returned = (s.reserved ++ [e]).take s.returned.length
    rw [List.take_append_of_le_length (by omega)]
    exact h.inOrder

theorem sound_store (h : Sound s threads) {i : Nat} {e : ε} {pos : Nat}
    (ht : threads[i]? = some (.producer e (.holding pos))) :
    Sound (s.store e pos) (threads.set i (.producer e .stored)) := by
  have hhead := h.head
  have hret := h.returned_le
  have hroom := h.room
  have hmem := List.mem_of_getElem? ht
  have howns : s.reserved[pos]? = some e := h.owns _ hmem
  have hlt : pos < s.ring.head :=
    hhead ▸ (List.getElem?_eq_some_iff.mp howns).1
  have hheld : 0 < threads.countP (holds pos) :=
    List.countP_pos_iff.mpr ⟨_, hmem, by simp [holds]⟩
  -- A held index is not completed, so it is not past the tail.
  have hnew : pos ∉ s.completed := by
    have hcount := h.accounted pos
    rw [if_pos hlt] at hcount
    exact List.count_eq_zero.mp (by omega)
  have hfrom : s.returned.length ≤ pos :=
    Nat.le_of_not_lt fun hlt => hnew (h.past pos hlt)
  refine ⟨hhead, h.tail_le, hroom, h.phase, ?_, ?_, ?_, ?_, h.right,
    h.inOrder, h.filled⟩
  · intro q
    have hset := count_set (holds q) ht (.producer e .stored)
    have hcount := h.accounted q
    show (threads.set i _).countP (holds q) + (pos :: s.completed).count q
      = if q < s.ring.head then 1 else 0
    rw [← hcount, List.count_cons]
    by_cases hq : pos = q
    · subst hq
      simp only [holds, decide_true, Bool.toNat_true, Bool.toNat_false]
        at hset
      rw [beq_self_eq_true, if_pos rfl]
      omega
    · simp only [holds, hq, decide_false, Bool.toNat_false] at hset
      rw [if_neg (by simpa using hq)]
      omega
  · exact forall_set h.owns trivial
  · intro q hq
    exact List.mem_cons_of_mem _ (h.past q hq)
  · refine (h.shows.put hfrom (by omega) (some e)).congr ?_
    intro q _ _
    show _ = if q ∈ pos :: s.completed then s.reserved[q]? else none
    by_cases hq : q = pos
    · subst hq
      rw [Function.update_self, if_pos List.mem_cons_self, howns]
    · rw [Function.update_of_ne hq, Shared.content]
      simp only [List.mem_cons, hq, false_or]

/-- A call of `pop` that the loads end: the ring is empty. -/
theorem sound_load (h : Sound s threads) (hidle : s.consumer = .idle) :
    Sound s.load threads := by
  have hphase := h.phase
  rw [hidle] at hphase
  have hn : s.returned.length = s.ring.tail := hphase
  have htail := h.tail_le
  have hroom := h.room
  have hsame : s.ring.popTail = s.ring.tail := if_neg (by omega)
  rw [Shared.load, hsame]
  -- A `pop` that finds nothing returns at its load, and only the record
  -- changes.
  by_cases hnull : s.ring.tail ≥ s.ring.head
  · rw [if_pos hnull]
    have hpast : s.waiting s.ring.tail = false := by
      rw [Shared.waiting, List.any_eq_false]
      intro i hi hfrom
      have hlt := h.lt_head hi
      have hfrom' : s.ring.tail ≤ i := of_decide_eq_true hfrom
      omega
    have hret : List.filterMap Popped.entry (s.pops
        ++ [⟨s.ring.tail, s.ring.tail, none, false,
          s.waiting s.ring.tail⟩]) = s.returned := by
      rw [List.filterMap_append]
      exact List.append_nil _
    refine ⟨h.head, htail, hroom, ?_, h.accounted, h.owns, ?_, ?_, ?_, ?_,
      ?_⟩
    · show s.consumer.Fits _ _ (List.filterMap _ _).length
      rw [hret]
      exact h.phase
    · show ∀ pos < (List.filterMap _ _).length, _
      rw [hret]
      exact h.past
    · show s.ring.slots.Shows (List.filterMap _ _).length s.content
      rw [hret]
      exact h.shows
    · refine List.forall_mem_append.mpr ⟨h.right, ?_⟩
      exact List.forall_mem_singleton.mpr (Or.inr ⟨rfl, rfl, hpast⟩)
    · show List.filterMap _ _ = s.reserved.take (List.filterMap _ _).length
      rw [hret]
      exact h.inOrder
    · refine List.forall_mem_append.mpr ⟨h.filled, ?_⟩
      exact List.forall_mem_singleton.mpr rfl
  · rw [if_neg hnull]
    have hlt : s.ring.tail < s.ring.head := by omega
    exact { h with phase := ⟨rfl, rfl, hn, hlt⟩ }

theorem sound_advance (h : Sound s threads) {before currTail : Nat}
    (hloaded : s.consumer = .loaded before currTail) :
    Sound (s.advance before currTail) threads := by
  have hphase := h.phase
  rw [hloaded] at hphase
  obtain ⟨hbefore, hcurr, hn, hlt⟩ := hphase
  have hroom := h.room
  refine { h with tail_le := hlt, room := ?_, phase := ?_ }
  · show s.ring.head < s.ring.tail + 1 + logBufferSize
    omega
  · exact ⟨hbefore.trans hcurr.symm, congrArg (· + 1) hcurr,
      hn.trans hcurr.symm⟩

/-- A slot that was stored into gives its entry. -/
theorem sound_take (h : Sound s threads) {before currTail : Nat}
    (hadvanced : s.consumer = .advanced before currTail)
    (hfilled : currTail ∈ s.completed) :
    Sound (s.take before currTail) threads := by
  have hphase := h.phase
  rw [hadvanced] at hphase
  obtain ⟨rfl, htail, hn⟩ := hphase
  have hroom := h.room
  have hlt := h.lt_head hfilled
  -- The entry at the tail is the one pushed there: it is completed and not
  -- yet returned.
  obtain ⟨e, hreserved, hget⟩ := h.lossless.kept _ hfilled (by omega)
  have hret : (s.take before before).returned = s.returned ++ [e] := by
    rw [Shared.returned, Shared.take, List.filterMap_append, hget]
    rfl
  have hlen : (s.take before before).returned.length = before + 1 := by
    rw [hret, List.length_append, List.length_singleton, hn]
  refine ⟨h.head, h.tail_le, hroom, ?_, h.accounted, h.owns, ?_, ?_, ?_,
    ?_, ?_⟩
  · exact hlen.trans htail
  · rw [hlen]
    intro pos hpos
    by_cases hlast : pos = before
    · exact hlast ▸ hfilled
    · exact h.past pos (by omega)
  -- The slot is emptied by the exchange, and its next lap has not been
  -- completed.
  · rw [hlen]
    refine (hn ▸ h.shows).take (Nat.succ_pos _) ?_
    refine if_neg fun hover => ?_
    have := h.lt_head hover
    omega
  · refine List.forall_mem_append.mpr ⟨h.right, ?_⟩
    exact List.forall_mem_singleton.mpr
      (Or.inl ⟨e, hget, hreserved, htail.symm⟩)
  · show _ = s.reserved.take _
    rw [hlen, hret, List.take_add_one, hreserved, ← hn, ← h.inOrder]
    rfl
  · refine List.forall_mem_append.mpr ⟨h.filled, ?_⟩
    exact List.forall_mem_singleton.mpr
      (decide_eq_false (not_not_intro hfilled))

/-- A slot that was not answers null, and the tail has moved. -/
theorem spoiled_take (h : Sound s threads) {before currTail : Nat}
    (hadvanced : s.consumer = .advanced before currTail)
    (hunfilled : currTail ∉ s.completed) :
    Spoiled (s.take before currTail) := by
  have hphase := h.phase
  rw [hadvanced] at hphase
  obtain ⟨rfl, htail, hn⟩ := hphase
  have hget := h.shows before (by omega) (by
    have : 0 < logBufferSize := Nat.succ_pos _
    omega)
  rw [Shared.content, if_neg hunfilled] at hget
  refine ⟨_, List.mem_append_right _ List.mem_cons_self,
    decide_eq_true hunfilled, hget, ?_⟩
  show s.ring.tail ≠ before
  omega

end Moves

-- ================================================================ the runs

/-- No step takes a returned call of `pop` off the record. -/
theorem step_pops {a : Move} {s s' : Shared ε} {t t' : Thread ε}
    (hstep : step a s t = some (s', t')) :
    ∃ more, s'.pops = s.pops ++ more := by
  cases ringStep_of hstep with
  | fetchAdd => exact ⟨[], (List.append_nil _).symm⟩
  | store => exact ⟨[], (List.append_nil _).symm⟩
  | load =>
      -- Only a `pop` that finds nothing returns at its load.
      rw [Shared.load]
      split
      · exact ⟨_, rfl⟩
      · exact ⟨[], (List.append_nil _).symm⟩
  | advance => exact ⟨[], (List.append_nil _).symm⟩
  | take => exact ⟨_, rfl⟩

/-- One move of one thread. -/
theorem sound_or_spoiled_move {sys : Sys (Shared ε) (Thread ε)} {i : Nat}
    {a : Move} {t : Thread ε} {s' : Shared ε} {t' : Thread ε}
    (h : Sound sys.shared sys.threads)
    (hroom : KeepsRoom sys (.move i a)) (ht : sys.threads[i]? = some t)
    (hstep : step a sys.shared t = some (s', t')) :
    Sound s' (sys.threads.set i t') ∨ Spoiled s' := by
  have hself : ∀ t, sys.threads[i]? = some t →
      sys.threads.set i t = sys.threads := by
    intro t ht
    obtain ⟨hi, rfl⟩ := List.getElem?_eq_some_iff.mp ht
    exact List.set_getElem_self hi
  cases ringStep_of hstep with
  | fetchAdd => exact Or.inl (sound_fetchAdd h ht (hroom i rfl))
  | store => exact Or.inl (sound_store h ht)
  | load hidle =>
      rw [hself _ ht]
      exact Or.inl (sound_load h hidle)
  | advance hloaded =>
      rw [hself _ ht]
      exact Or.inl (sound_advance h hloaded)
  | @take before currTail hadvanced =>
      rw [hself _ ht]
      by_cases hfilled : currTail ∈ sys.shared.completed
      · exact Or.inl (sound_take h hadvanced hfilled)
      · exact Or.inr (spoiled_take h hadvanced hfilled)

/-- A system is sound, or has its spoiled pop on record. -/
def SoundOrSpoiled (sys : Sys (Shared ε) (Thread ε)) : Prop :=
  Sound sys.shared sys.threads ∨ Spoiled sys.shared

theorem sound_or_spoiled {sys : Sys (Shared ε) (Thread ε)}
    (hreach : program.Reach KeepsRoom ({} : Shared ε) sys) :
    SoundOrSpoiled sys := by
  refine hreach.invariant ?_ ?_ ?_
  · exact Or.inl sound_start
  · intro s r hinv _
    exact hinv.imp_left fun h => sound_arrive h r
  · intro s i a t s' t' hinv hroom ht hstep
    cases hinv with
    | inl h => exact sound_or_spoiled_move h hroom ht hstep
    | inr h => exact Or.inr (h.mono (step_pops hstep))

/-- Concurrent logging loses nothing exactly where no pop empties a slot
before the push of its index has stored into it. -/
theorem lossless_iff {sys : Sys (Shared ε) (Thread ε)}
    (hreach : program.Reach KeepsRoom ({} : Shared ε) sys) :
    Lossless sys.shared
      ↔ ∀ p ∈ sys.shared.pops, p.unfilled = false := by
  cases sound_or_spoiled hreach with
  | inl h => exact ⟨fun _ => h.filled, fun _ => h.lossless⟩
  | inr h =>
      obtain ⟨p, hp, hunfilled, -⟩ := id h
      refine ⟨fun hl => absurd hl h.not_lossless, fun hfilled => ?_⟩
      exact absurd (hunfilled.symm.trans (hfilled p hp)) (by decide)

/-- Only the first step of a push asks for room. -/
theorem keepsRoom_other (sys : Sys (Shared ε) (Thread ε))
    {x : Action (Caller ε) Move} (hx : ∀ i, x ≠ .move i .fetchAdd) :
    KeepsRoom sys x :=
  fun i hi => absurd hi (hx i)

theorem keepsRoom_fetchAdd {sys : Sys (Shared ε) (Thread ε)} {i : Nat}
    (h : sys.shared.ring.head + 1 - sys.shared.ring.tail < logBufferSize) :
    KeepsRoom sys (.move i .fetchAdd) :=
  fun _ _ => h

/-- Two threads have arrived, and the first has its index. -/
theorem reach_fetchAdd (e : ε) :
    program.Reach KeepsRoom ({} : Shared ε)
      ⟨Shared.fetchAdd {} e, [.producer e (.holding 0), .consumer]⟩ := by
  have hpush : program.Reach KeepsRoom ({} : Shared ε)
      ⟨{}, [.producer e .fresh]⟩ :=
    Program.Reach.start.step (x := .arrive (.push e))
      (keepsRoom_other _ nofun) rfl
  have harrived := hpush.step
    (x := .arrive .consume) (keepsRoom_other _ nofun) rfl
  refine harrived.step (x := .move 0 .fetchAdd) (keepsRoom_fetchAdd ?_) rfl
  show 0 + 1 - 0 < logBufferSize
  decide

/-- A pop between the two steps of a push: it answers null, and the push
that completes behind it is past the tail. -/
theorem push_lost_between_its_steps :
    ∃ sys, program.Reach KeepsRoom ({} : Shared Nat) sys
      ∧ ¬ Lossless sys.shared := by
  have hpopped := (((reach_fetchAdd 7).step
    (x := .move 1 .load) (keepsRoom_other _ nofun) rfl).step
    (x := .move 1 .advance) (keepsRoom_other _ nofun) rfl).step
    (x := .move 1 .take) (keepsRoom_other _ nofun) rfl
  have hstored := hpopped.step
    (x := .move 0 .store) (keepsRoom_other _ nofun) rfl
  refine ⟨_, hstored, Spoiled.not_lossless ⟨_, List.mem_cons_self, ?_⟩⟩
  exact ⟨rfl, rfl, by decide⟩

/-- Two pushes that overlap, the later stored first, and both popped
behind them. -/
theorem lossless_overlap :
    ∃ sys, program.Reach KeepsRoom ({} : Shared Nat) sys
      ∧ sys.shared.returned = [7, 8] ∧ Lossless sys.shared := by
  have harrived := (reach_fetchAdd 7).step
    (x := .arrive (.push 8)) (keepsRoom_other _ nofun) rfl
  have hreserved := harrived.step
    (x := .move 2 .fetchAdd) (keepsRoom_fetchAdd (by decide)) rfl
  have hstored := (hreserved.step
    (x := .move 2 .store) (keepsRoom_other _ nofun) rfl).step
    (x := .move 0 .store) (keepsRoom_other _ nofun) rfl
  have hfirst := ((hstored.step
    (x := .move 1 .load) (keepsRoom_other _ nofun) rfl).step
    (x := .move 1 .advance) (keepsRoom_other _ nofun) rfl).step
    (x := .move 1 .take) (keepsRoom_other _ nofun) rfl
  have hboth := ((hfirst.step
    (x := .move 1 .load) (keepsRoom_other _ nofun) rfl).step
    (x := .move 1 .advance) (keepsRoom_other _ nofun) rfl).step
    (x := .move 1 .take) (keepsRoom_other _ nofun) rfl
  refine ⟨_, hboth, rfl, (lossless_iff hboth).mpr ?_⟩
  intro p hp
  rcases List.mem_cons.mp hp with rfl | hp
  · rfl
  · obtain rfl := List.mem_singleton.mp hp
    rfl

end LogRing

end CgiWebServer
