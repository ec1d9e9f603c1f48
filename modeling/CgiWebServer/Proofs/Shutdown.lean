/-
A logger that has stopped has written what was pushed before.

What the pops have returned is what has been written and, behind it, what
the batch holds (`Told`). Seen from the ring the threads are those of the
ring's own program, so its invariant (`LogRing.Sound`) says that the pops
have returned the first entries in the order of their indices. A drain
ends at a null, with the tail at the head: whatever had an index when the
stop began is written.
-/
import CgiWebServer.Proofs.LogConsumer
import CgiWebServer.Proofs.LogRing
import CgiWebServer.Proofs.LogText

namespace CgiWebServer

-- =================================================== a logger's own state

namespace Logger

variable {ε : Type} [Entry ε] {times : Nat → Bytes}

/-- Building the batch does not look at the ring. -/
theorem buildBatch_ring (ring : LogRing ε) (is : List Nat) :
    ∀ (logs : Bytes) (l : Logger ε),
      buildBatch times is logs { l with ring := ring }
        = (buildBatch times is logs l).map fun (logs, l) =>
            (logs, { l with ring := ring }) := by
  induction is with
  | nil => exact fun _ _ => rfl
  | cons i rest ih =>
      intro logs l
      rw [buildBatch, buildBatch]
      cases hentry : l.batch i with
      | none => rfl
      | some e =>
          exact ih (logs ++ (Entry.build (times l.built) e).1)
            { l with
              batch := Function.update l.batch i
                (some (Entry.build (times l.built) e).2)
              built := l.built + 1 }

/-- Neither does a flush. -/
theorem flush_ring (times : Nat → Bytes) (ring : LogRing ε)
    (l : Logger ε) :
    flush times { l with ring := ring }
      = (flush times l).map fun l => { l with ring := ring } := by
  rw [flush, flush]
  show (buildBatch times (List.range l.entries) [] _).bind _ = _
  rw [buildBatch_ring]
  cases buildBatch times (List.range l.entries) [] l with
  | none => rfl
  | some _ => rfl

/-- What the pops have returned has been written or is in the batch, in
this order, and the batch has room. -/
def Told (times : Nat → Bytes) (sinks : List Bytes) (returned : List ε)
    (l : Logger ε) : Prop :=
  ∃ written batched, Kept times sinks written batched []
      { l with ring := {} }
    ∧ batched.length < entryBatchSize ∧ written ++ batched = returned

namespace Told

variable {sinks : List Bytes} {returned : List ε} {l : Logger ε}

/-- The ring has no part in it, and neither has the join. -/
theorem congr (h : Told times sinks returned l) {l' : Logger ε}
    (hbatch : l'.batch = l.batch) (hentries : l'.entries = l.entries)
    (hsinks : l'.sinks = l.sinks) (hbuilt : l'.built = l.built) :
    Told times sinks returned l' := by
  obtain ⟨written, batched, hkept, hshort, hall⟩ := h
  refine ⟨written, batched, ⟨?_, ?_, ?_, ?_, hkept.ring⟩, hshort, hall⟩
  · exact hbuilt.trans hkept.built
  · exact hsinks.trans hkept.sinks
  · exact hentries.trans hkept.entries
  · intro i hi
    exact (congrFun hbatch i).trans (hkept.batch i hi)

/-- A flush writes the batch, and leaves the ring. -/
theorem flush (h : Told times sinks returned l) :
    ∃ l', Logger.flush times l = some l' ∧ Told times sinks returned l'
      ∧ l'.entries = 0 ∧ l'.ring = l.ring ∧ l.built ≤ l'.built := by
  obtain ⟨written, batched, hkept, -, hall⟩ := h
  obtain ⟨k, hrun, hflushed, -⟩ := hkept.flush
  refine ⟨{ k with ring := l.ring }, ?_, ?_, hflushed.entries, rfl, ?_⟩
  · have hring := flush_ring times l.ring { l with ring := {} }
    rw [hrun] at hring
    exact hring
  · refine ⟨written ++ batched, [], ⟨hflushed.built, hflushed.sinks,
      hflushed.entries, hflushed.batch, ⟨rfl, fun _ =>
        Ring.Slots.shows_empty 0⟩⟩, Nat.zero_lt_succ _, ?_⟩
    rw [List.append_nil, hall]
  · have hbefore : l.built = written.length := hkept.built
    have hafter : k.built = (written ++ batched).length := hflushed.built
    show l.built ≤ k.built
    rw [hbefore, hafter, List.length_append]
    exact Nat.le_add_right _ _

/-- A flush that waits for something to write. -/
theorem flushPending (h : Told times sinks returned l) :
    ∃ l', Logger.flushPending times l = some l'
      ∧ Told times sinks returned l' ∧ l'.entries = 0 ∧ l'.ring = l.ring
      ∧ l.built ≤ l'.built := by
  unfold Logger.flushPending
  by_cases hpos : l.entries > 0
  · rw [if_pos hpos]
    exact h.flush
  · rw [if_neg hpos]
    exact ⟨l, rfl, h, by omega, rfl, Nat.le_refl _⟩

/-- A flush that waits for the batch's time. -/
theorem flushTimeout (h : Told times sinks returned l) (timeout : Bool) :
    ∃ l', Logger.flushTimeout times timeout l = some l'
      ∧ Told times sinks returned l' ∧ l'.ring = l.ring
      ∧ l.built ≤ l'.built := by
  unfold Logger.flushTimeout
  by_cases hflush : (decide (l.entries > 0) && timeout) = true
  · rw [if_pos hflush]
    obtain ⟨l', hrun, htold, -, hring, hbuilt⟩ := h.flush
    exact ⟨l', hrun, htold, hring, hbuilt⟩
  · rw [if_neg hflush]
    exact ⟨l, rfl, h, rfl, Nat.le_refl _⟩

/-- The popped entry is the batch's next one, or the flush takes it. -/
theorem batchEntry (h : Told times sinks returned l) (e : ε) :
    ∃ l', Logger.batchEntry times e l = some l'
      ∧ Told times sinks (returned ++ [e]) l' ∧ l'.ring = l.ring
      ∧ l.built ≤ l'.built := by
  obtain ⟨written, batched, hkept, hshort, hall⟩ := h
  have hentries : l.entries = batched.length := hkept.entries
  -- The batch with the entry, which may be full now.
  have hfull : Kept times sinks written (batched ++ [e]) []
      { l with
        ring := {}
        batch := Function.update l.batch l.entries (some e)
        entries := l.entries + 1 } := hkept.store e hkept.ring
  have hsame : written ++ (batched ++ [e]) = returned ++ [e] := by
    rw [← List.append_assoc, hall]
  rw [Logger.batchEntry, if_pos (by omega)]
  by_cases hlast : l.entries + 1 ≥ entryBatchSize
  -- A full batch is flushed, and an empty one begins.
  · simp only [hlast, if_true]
    obtain ⟨k, hrun, hflushed, -⟩ := hfull.flush
    have hring := flush_ring times l.ring { l with
      ring := {}
      batch := Function.update l.batch l.entries (some e)
      entries := l.entries + 1 }
    rw [hrun] at hring
    refine ⟨{ k with ring := l.ring }, hring, ?_, rfl, ?_⟩
    · refine ⟨written ++ (batched ++ [e]), [], ⟨hflushed.built,
        hflushed.sinks, hflushed.entries, hflushed.batch,
        ⟨rfl, fun _ => Ring.Slots.shows_empty 0⟩⟩, Nat.zero_lt_succ _, ?_⟩
      rw [List.append_nil, hsame]
    · have hbefore : l.built = written.length := hkept.built
      have hafter : k.built = (written ++ (batched ++ [e])).length :=
        hflushed.built
      show l.built ≤ k.built
      rw [hbefore, hafter, List.length_append]
      exact Nat.le_add_right _ _
  · simp only [hlast, if_false]
    refine ⟨_, rfl, ⟨written, batched ++ [e], hfull, ?_, hsame⟩, rfl,
      Nat.le_refl _⟩
    rw [List.length_append, List.length_singleton]
    omega

/-- The drain writes an entry behind what is written. -/
theorem writeEntry (h : Told times sinks returned l) (hempty : l.entries = 0)
    (e : ε) : Told times sinks (returned ++ [e]) (l.writeEntry times e) := by
  obtain ⟨written, batched, hkept, hshort, rfl⟩ := h
  have hentries : l.entries = batched.length := hkept.entries
  obtain rfl : batched = [] := List.length_eq_zero_iff.mp (by omega)
  have hbuilt : l.built = written.length := hkept.built
  have hsinks : l.sinks = sinks.map (· ++ textFrom times 0 written) :=
    hkept.sinks
  rw [List.append_nil]
  refine ⟨written ++ [e], [], ⟨?_, ?_, hentries,
    fun i hi => absurd hi (Nat.not_lt_zero i), hkept.ring⟩, hshort,
    List.append_nil _⟩
  · show l.built + 1 = (written ++ [e]).length
    rw [hbuilt, List.length_append, List.length_singleton]
  · show l.sinks.map (· ++ (Entry.build (times l.built) e).1) = _
    rw [hsinks, List.map_map, hbuilt, textFrom_append, Nat.zero_add,
      textFrom, textFrom, List.append_nil]
    exact List.map_congr_left fun text _ => List.append_assoc _ _ _

/-- With the batch empty, what was popped is what was built. -/
theorem built (h : Told times sinks returned l) (hempty : l.entries = 0) :
    l.built = returned.length := by
  obtain ⟨written, batched, hkept, -, rfl⟩ := h
  have hentries : l.entries = batched.length := hkept.entries
  obtain rfl : batched = [] := List.length_eq_zero_iff.mp (by omega)
  rw [List.append_nil]
  exact hkept.built

end Told

end Logger

namespace LogStop

open Interleave
open Logger (Told)

variable {ε : Type}

-- ================================================================ the ring

/-- A thread, as the ring's program has it. -/
def ringThread : Thread ε → LogRing.Thread ε
  | .producer e phase => .producer e phase
  | _ => .consumer

/-- A thread the ring sees unchanged changes nothing there. -/
theorem map_set_same {threads : List (Thread ε)} {i : Nat}
    {t t' : Thread ε} (ht : threads[i]? = some t)
    (hsame : ringThread t' = ringThread t) :
    (threads.map ringThread).set i (ringThread t')
      = threads.map ringThread := by
  have hread : (threads.map ringThread)[i]? = some (ringThread t) := by
    rw [List.getElem?_map, ht, Option.map_some]
  obtain ⟨hlt, hget⟩ := List.getElem?_eq_some_iff.mp hread
  rw [hsame, ← hget]
  exact List.set_getElem_self hlt

-- ========================================================== the invariant

variable [Entry ε] {times : Nat → Bytes} {sinks : List Bytes}

omit [Entry ε] in
/-- What a caller of `stopAndFlush` has done where it is: in the drain
the batch is empty, and behind it what was due is written. -/
def Fits (m : Shared ε) : Thread ε → Prop
  | .stopper (.joining due) | .stopper (.flushing due) =>
      due ≤ m.logger.ring.head
  | .stopper (.draining due) =>
      m.logger.entries = 0 ∧ due ≤ m.logger.ring.head
  | .stopper (.returned due) => due ≤ m.logger.built
  | _ => True

omit [Entry ε] in
/-- A step that leaves the others where they are; only behind the join
does anyone look at the batch. -/
structure Spares (m m' : Shared ε) : Prop where
  head : m.logger.ring.head ≤ m'.logger.ring.head
  built : m.logger.built ≤ m'.logger.built
  entries : m.exited = true → m.logger.entries = 0 → m'.logger.entries = 0

omit [Entry ε] in
theorem Fits.spared {m m' : Shared ε} {t : Thread ε} (h : Fits m t)
    (hexited : isBehind t = true → m.exited = true)
    (hspares : Spares m m') : Fits m' t := by
  obtain ⟨hhead, hbuilt, hentries⟩ := hspares
  rcases t with ⟨e, phase⟩ | phase | (_ | due | due | due | due)
  · trivial
  · trivial
  · trivial
  · exact Nat.le_trans h hhead
  · exact Nat.le_trans h hhead
  · exact ⟨hentries (hexited rfl) h.1, Nat.le_trans h.2 hhead⟩
  · exact Nat.le_trans h hbuilt

/-- The invariant of the logger and its threads. -/
structure Inv (times : Nat → Bytes) (sinks : List Bytes)
    (sys : Sys (Shared ε) (Thread ε)) : Prop where
  control : Control sys
  ring : LogRing.Sound sys.shared.ring (sys.threads.map ringThread)
  told : Told times sinks sys.shared.ring.returned sys.shared.logger
  fits : ∀ t ∈ sys.threads, Fits sys.shared t

/-- The rule for one move: what the ring, the queue and the thread
need. -/
theorem Inv.move {sys : Sys (Shared ε) (Thread ε)} {i : Nat}
    {t' : Thread ε} {m' : Shared ε} (hinv : Inv times sinks sys)
    (hcontrol : Control ⟨m', sys.threads.set i t'⟩)
    (hring : LogRing.Sound m'.ring
      ((sys.threads.map ringThread).set i (ringThread t')))
    (htold : Told times sinks m'.ring.returned m'.logger)
    (hspares : Spares sys.shared m') (hfits : Fits m' t') :
    Inv times sinks ⟨m', sys.threads.set i t'⟩ := by
  refine ⟨hcontrol, ?_, htold, forall_set (fun u hu => ?_) hfits⟩
  · rw [List.map_set]
    exact hring
  · exact (hinv.fits u hu).spared (hinv.control.behind u hu) hspares

omit [Entry ε] in
/-- A take in time finds its slot filled. -/
theorem filled_of_inTime {sys : Sys (Shared ε) (Thread ε)} {i : Nat}
    {before currTail : Nat} (hok : InTime sys (.move i .take))
    (hadvanced : sys.shared.consumer = .advanced before currTail) :
    currTail ∈ sys.shared.completed := by
  have htime := (Bool.and_eq_true_iff.mp hok).2
  rw [inTime, hadvanced] at htime
  exact of_decide_eq_true htime

/-- An arrival. -/
theorem Inv.arrive {sys : Sys (Shared ε) (Thread ε)} {r : Caller ε}
    (hinv : Inv times sinks sys) (hserial : Serial sys (.arrive r)) :
    Inv times sinks
      ⟨sys.shared, sys.threads ++ [(program times).start r]⟩ := by
  refine ⟨hinv.control.arrive hserial, ?_, hinv.told, ?_⟩
  · rw [List.map_append]
    cases r with
    | push e => exact LogRing.sound_arrive hinv.ring (.push e)
    | work => exact LogRing.sound_arrive hinv.ring .consume
    | stop => exact LogRing.sound_arrive hinv.ring .consume
  · exact forall_arrive hinv.fits (by cases r <;> trivial)

/-- A push touches the ring alone. -/
theorem Inv.push {sys : Sys (Shared ε) (Thread ε)} {i : Nat} {a : Move}
    {e : ε} {phase phase' : LogRing.PushPhase} {m' : Shared ε}
    (hinv : Inv times sinks sys) (hok : InTime sys (.move i a))
    (ht : sys.threads[i]? = some (.producer e phase))
    (hcontrol : Control ⟨m', sys.threads.set i (.producer e phase')⟩)
    (hstep : PushStep sys.shared e a phase m' phase') :
    Inv times sinks ⟨m', sys.threads.set i (.producer e phase')⟩ := by
  have hread : (sys.threads.map ringThread)[i]?
      = some (.producer e phase) := by
    rw [List.getElem?_map, ht]
    rfl
  cases hstep with
  | fetchAdd =>
      have hroom := (Bool.and_eq_true_iff.mp hok).2
      exact hinv.move hcontrol
        (LogRing.sound_fetchAdd hinv.ring hread (of_decide_eq_true hroom))
        (hinv.told.congr rfl rfl rfl rfl)
        ⟨Nat.le_succ _, Nat.le_refl _, fun _ h => h⟩ trivial
  | store =>
      exact hinv.move hcontrol (LogRing.sound_store hinv.ring hread)
        (hinv.told.congr rfl rfl rfl rfl)
        ⟨Nat.le_refl _, Nat.le_refl _, fun _ h => h⟩ trivial

-- ======================================================= the consumer

omit [Entry ε] in
/-- The loads of a pop return no entry. -/
theorem returned_load (r : LogRing.Shared ε) :
    r.load.returned = r.returned := by
  rw [LogRing.Shared.load]
  split
  · show List.filterMap _ (r.pops ++ _) = _
    rw [List.filterMap_append]
    exact List.append_nil _
  · rfl

omit [Entry ε] in
theorem head_load (r : LogRing.Shared ε) : r.load.ring.head = r.ring.head := by
  rw [LogRing.Shared.load]
  split <;> rfl

omit [Entry ε] in
/-- The take returns what the slot holds. -/
theorem returned_take {m : Shared ε} {before currTail : Nat} {e : ε}
    (hslot : m.slot currTail = some e) :
    (m.ring.take before currTail).returned = m.ring.returned ++ [e] := by
  have hget : m.ring.ring.slots.get currTail = some e := hslot
  show List.filterMap _ (m.ring.pops ++ _) = _
  rw [List.filterMap_append, hget]
  rfl

omit [Entry ε] in
/-- A slot that was filled is not null. -/
theorem slot_filled {m : Shared ε} {threads : List (LogRing.Thread ε)}
    {before currTail : Nat} (hring : LogRing.Sound m.ring threads)
    (hadvanced : m.consumer = .advanced before currTail)
    (hfilled : currTail ∈ m.completed) : m.slot currTail ≠ none := by
  have hphase := hring.phase
  rw [show m.ring.consumer = .advanced before currTail from hadvanced]
    at hphase
  obtain ⟨rfl, -, hn⟩ := hphase
  obtain ⟨e, -, hget⟩ := hring.lossless.kept _ hfilled (by omega)
  rw [show m.slot before = some e from hget]
  exact Option.some_ne_none e

omit [Entry ε] in
/-- What the worker does spares the others: nobody is behind the join
while it lives. -/
theorem Spares.alone {sys : Sys (Shared ε) (Thread ε)} {i : Nat}
    {phase : WorkerPhase} {m' : Shared ε} (hcontrol : Control sys)
    (ht : sys.threads[i]? = some (.worker phase))
    (halive : isAlive (.worker phase : Thread ε) = true)
    (hhead : m'.logger.ring.head = sys.shared.logger.ring.head)
    (hbuilt : sys.shared.logger.built ≤ m'.logger.built) :
    Spares sys.shared m' := by
  refine ⟨Nat.le_of_eq hhead.symm, hbuilt, fun hexited => ?_⟩
  cases (hcontrol.not_exited ht halive).symm.trans hexited

/-- A move of the worker. -/
theorem Inv.work {sys : Sys (Shared ε) (Thread ε)} {i : Nat} {a : Move}
    {phase phase' : WorkerPhase} {m' : Shared ε}
    (hinv : Inv times sinks sys) (hok : InTime sys (.move i a))
    (ht : sys.threads[i]? = some (.worker phase))
    (hcontrol : Control ⟨m', sys.threads.set i (.worker phase')⟩)
    (hstep : WorkerStep times sys.shared a phase m' phase') :
    Inv times sinks ⟨m', sys.threads.set i (.worker phase')⟩ := by
  have hsame := map_set_same ht
    (show ringThread (.worker phase') = ringThread (.worker phase) from rfl)
  have hspares : ∀ {m' : Shared ε}, isAlive (.worker phase : Thread ε) = true →
      m'.logger.ring.head = sys.shared.logger.ring.head →
      sys.shared.logger.built ≤ m'.logger.built → Spares sys.shared m' :=
    fun halive => Spares.alone hinv.control ht halive
  have hidleStep : Spares sys.shared sys.shared :=
    ⟨Nat.le_refl _, Nat.le_refl _, fun _ h => h⟩
  have hload : (sys.shared.withRing sys.shared.ring.load).ring.returned
      = sys.shared.ring.returned := returned_load _
  cases hstep with
  | begin =>
      exact hinv.move hcontrol (by rw [hsame]; exact hinv.ring) hinv.told
        hidleStep trivial
  | goOn =>
      exact hinv.move hcontrol (by rw [hsame]; exact hinv.ring) hinv.told
        hidleStep trivial
  | leave =>
      exact hinv.move hcontrol (by rw [hsame]; exact hinv.ring) hinv.told
        hidleStep trivial
  | @turn timeout l hflush =>
      obtain ⟨l', hrun, htold, hring, hbuilt⟩ :=
        hinv.told.flushTimeout timeout
      obtain rfl := Option.some.inj (hflush.symm.trans hrun)
      have hview : (sys.shared.withLogger l).ring = sys.shared.ring := by
        simp only [Shared.ring, Shared.withLogger, hring]
      exact hinv.move hcontrol (by rw [hsame, hview]; exact hinv.ring)
        (by rw [hview]; exact htold)
        (hspares rfl (congrArg LogRing.head hring) hbuilt) trivial
  | null hidle _ =>
      refine hinv.move hcontrol
        (by rw [hsame]; exact LogRing.sound_load hinv.ring hidle) ?_
        (hspares rfl (head_load sys.shared.ring) (Nat.le_refl _)) trivial
      rw [hload]
      exact hinv.told.congr rfl rfl rfl rfl
  | load hidle =>
      refine hinv.move hcontrol
        (by rw [hsame]; exact LogRing.sound_load hinv.ring hidle) ?_
        (hspares rfl (head_load sys.shared.ring) (Nat.le_refl _)) trivial
      rw [hload]
      exact hinv.told.congr rfl rfl rfl rfl
  | advance hloaded =>
      exact hinv.move hcontrol
        (by rw [hsame]; exact LogRing.sound_advance hinv.ring hloaded)
        (hinv.told.congr rfl rfl rfl rfl) (hspares rfl rfl (Nat.le_refl _))
        trivial
  | empty hadvanced hslot =>
      -- a step in time meets no slot that its push has not filled
      have hfilled := filled_of_inTime hok hadvanced
      exact absurd hslot (slot_filled hinv.ring hadvanced hfilled)
  | @take before currTail e l hadvanced hslot hbatch =>
      have hfilled := filled_of_inTime hok hadvanced
      have hpopped : Told times sinks sys.shared.ring.returned
          (sys.shared.withRing
            (sys.shared.ring.take before currTail)).logger :=
        hinv.told.congr rfl rfl rfl rfl
      obtain ⟨l', hrun, htold, hring, hbuilt⟩ := hpopped.batchEntry e
      obtain rfl := Option.some.inj (hbatch.symm.trans hrun)
      have hview : ((sys.shared.withRing
          (sys.shared.ring.take before currTail)).withLogger l).ring
          = sys.shared.ring.take before currTail := by
        simp only [Shared.ring, Shared.withLogger, Shared.withRing, hring]
      have hsameHead : l.ring.head = sys.shared.logger.ring.head := by
        rw [hring]
        rfl
      refine hinv.move hcontrol ?_ ?_ (hspares rfl hsameHead hbuilt) trivial
      · rw [hsame, hview]
        exact LogRing.sound_take hinv.ring hadvanced hfilled
      · rw [hview, returned_take hslot]
        exact htold
  | @finish l hflush =>
      obtain ⟨l', hrun, htold, -, hring, hbuilt⟩ := hinv.told.flushPending
      obtain rfl := Option.some.inj (hflush.symm.trans hrun)
      have hview : Shared.ring
          { sys.shared.withLogger l with exited := true }
          = sys.shared.ring := by
        simp only [Shared.ring, Shared.withLogger, hring]
      exact hinv.move hcontrol (by rw [hsame, hview]; exact hinv.ring)
        (by rw [hview]; exact htold)
        (hspares rfl (congrArg LogRing.head hring) hbuilt) trivial

omit [Entry ε] in
/-- At a null every index below the head has been returned: the tail is
at the head, and no pop is under way. -/
theorem returned_at_null {m : Shared ε} {threads : List (LogRing.Thread ε)}
    (hring : LogRing.Sound m.ring threads) (hidle : m.consumer = .idle)
    (hnull : m.logger.ring.popTail ≥ m.logger.ring.head) :
    m.logger.ring.head ≤ m.ring.returned.length := by
  have hreturned : m.ring.returned.length = m.logger.ring.tail := by
    have hphase := hring.phase
    rw [show m.ring.consumer = .idle from hidle] at hphase
    exact hphase
  have hroom := hring.room
  have hbelow := hring.tail_le
  have htail : m.logger.ring.popTail = m.logger.ring.tail :=
    if_neg (show ¬ m.ring.ring.head - m.ring.ring.tail ≥ logBufferSize by
      omega)
  omega

/-- A move of a caller of `stopAndFlush`: from its flush on the batch is
empty, and it returns at a null. -/
theorem Inv.stop {sys : Sys (Shared ε) (Thread ε)} {i : Nat} {a : Move}
    {phase phase' : StopPhase} {m' : Shared ε}
    (hinv : Inv times sinks sys) (hok : InTime sys (.move i a))
    (ht : sys.threads[i]? = some (.stopper phase))
    (hcontrol : Control ⟨m', sys.threads.set i (.stopper phase')⟩)
    (hstep : StopperStep times sys.shared a phase m' phase') :
    Inv times sinks ⟨m', sys.threads.set i (.stopper phase')⟩ := by
  have hsame := map_set_same ht
    (show ringThread (.stopper phase') = ringThread (.stopper phase) from
      rfl)
  have hfits := hinv.fits _ (List.mem_of_getElem? ht)
  have hloaded : Told times sinks
      (sys.shared.withRing sys.shared.ring.load).ring.returned
      (sys.shared.withRing sys.shared.ring.load).logger := by
    rw [show (sys.shared.withRing sys.shared.ring.load).ring.returned
      = sys.shared.ring.returned from returned_load _]
    exact hinv.told.congr rfl rfl rfl rfl
  have hhead : sys.shared.logger.ring.head = sys.shared.ring.load.ring.head :=
    (head_load sys.shared.ring).symm
  cases hstep with
  | stop =>
      exact hinv.move hcontrol (by rw [hsame]; exact hinv.ring) hinv.told
        ⟨Nat.le_refl _, Nat.le_refl _, fun _ h => h⟩ (Nat.le_refl _)
  | join =>
      exact hinv.move hcontrol (by rw [hsame]; exact hinv.ring)
        (hinv.told.congr rfl rfl rfl rfl)
        ⟨Nat.le_refl _, Nat.le_refl _, fun _ h => h⟩ hfits
  | joined =>
      exact hinv.move hcontrol (by rw [hsame]; exact hinv.ring) hinv.told
        ⟨Nat.le_refl _, Nat.le_refl _, fun _ h => h⟩ hfits
  | @flush due l hflush =>
      -- the batch goes out: from here on it is empty
      obtain ⟨l', hrun, htold, hentries, hring, hbuilt⟩ :=
        hinv.told.flushPending
      obtain rfl := Option.some.inj (hflush.symm.trans hrun)
      have hview : (sys.shared.withLogger l).ring = sys.shared.ring := by
        simp only [Shared.ring, Shared.withLogger, hring]
      have hhead : sys.shared.logger.ring.head = l.ring.head :=
        (congrArg LogRing.head hring).symm
      exact hinv.move hcontrol (by rw [hsame, hview]; exact hinv.ring)
        (by rw [hview]; exact htold)
        ⟨Nat.le_of_eq hhead, hbuilt, fun _ _ => hentries⟩
        ⟨hentries, Nat.le_trans hfits (Nat.le_of_eq hhead)⟩
  | @null due hidle hnull =>
      -- what is due has been returned, and all that was is built
      obtain ⟨hentries, hdue⟩ := hfits
      have hreturned := returned_at_null hinv.ring hidle hnull
      have hbuilt := hinv.told.built hentries
      refine hinv.move hcontrol
        (by rw [hsame]; exact LogRing.sound_load hinv.ring hidle) hloaded
        ⟨Nat.le_of_eq hhead, Nat.le_refl _, fun _ h => h⟩ ?_
      show due ≤ sys.shared.logger.built
      omega
  | load hidle =>
      obtain ⟨hentries, hdue⟩ := hfits
      exact hinv.move hcontrol
        (by rw [hsame]; exact LogRing.sound_load hinv.ring hidle) hloaded
        ⟨Nat.le_of_eq hhead, Nat.le_refl _, fun _ h => h⟩
        ⟨hentries, Nat.le_trans hdue (Nat.le_of_eq hhead)⟩
  | advance hloaded =>
      exact hinv.move hcontrol
        (by rw [hsame]; exact LogRing.sound_advance hinv.ring hloaded)
        (hinv.told.congr rfl rfl rfl rfl)
        ⟨Nat.le_refl _, Nat.le_refl _, fun _ h => h⟩ hfits
  | empty hadvanced hslot =>
      have hfilled := filled_of_inTime hok hadvanced
      exact absurd hslot (slot_filled hinv.ring hadvanced hfilled)
  | @write due before currTail e hadvanced hslot =>
      have hfilled := filled_of_inTime hok hadvanced
      have hpopped : Told times sinks sys.shared.ring.returned
          (sys.shared.withRing
            (sys.shared.ring.take before currTail)).logger :=
        hinv.told.congr rfl rfl rfl rfl
      refine hinv.move hcontrol
        (by rw [hsame]; exact LogRing.sound_take hinv.ring hadvanced hfilled)
        ?_ ⟨Nat.le_refl _, Nat.le_succ _, fun _ h => h⟩ hfits
      show Told times sinks (sys.shared.ring.take before currTail).returned _
      rw [returned_take hslot]
      exact hpopped.writeEntry hfits.1 e

-- ======================================================== over whole runs

/-- Every system reached in time keeps the invariant. -/
theorem inv_of_reach {sys : Sys (Shared ε) (Thread ε)}
    (hreach : (program times).Reach InTime (started sinks) sys) :
    Inv times sinks sys := by
  refine hreach.invariant ?_ ?_ ?_
  · refine ⟨Control.start, LogRing.sound_start, ?_, by simp⟩
    refine ⟨[], [], ⟨rfl, ?_, rfl, fun i hi => absurd hi (Nat.not_lt_zero i),
      ⟨rfl, fun _ => Ring.Slots.shows_empty 0⟩⟩, Nat.zero_lt_succ _, rfl⟩
    show sinks = sinks.map (· ++ [])
    simp only [List.append_nil, List.map_id']
  · intro sys r hinv hok
    exact hinv.arrive (Bool.and_eq_true_iff.mp hok).1
  · intro sys i a t m' t' hinv hok ht hstep
    have hserial : Serial sys (.move i a) := (Bool.and_eq_true_iff.mp hok).1
    have hcontrol := hinv.control.step hserial ht hstep
    cases t with
    | producer e phase =>
        obtain ⟨⟨m', phase'⟩, hpush, hnext⟩ :=
          Option.map_eq_some_iff.mp hstep
        cases hnext
        exact hinv.push hok ht hcontrol (pushStep_of hpush)
    | worker phase =>
        obtain ⟨⟨m', phase'⟩, hwork, hnext⟩ :=
          Option.map_eq_some_iff.mp hstep
        cases hnext
        exact hinv.work hok ht hcontrol (workerStep_of hwork)
    | stopper phase =>
        obtain ⟨⟨m', phase'⟩, hstop, hnext⟩ :=
          Option.map_eq_some_iff.mp hstep
        cases hnext
        exact hinv.stop hok ht hcontrol (stopperStep_of hstop)

/-- Whatever the interleaving, as long as the logger is started once, calls
of `stopAndFlush` do not overlap, the ring is not overrun and no slot is
emptied before it is filled: the sinks have received the texts of
the first pushed entries, each once, in push order, and the batch holds
the next ones; a call of `stopAndFlush` that has returned has written all
that had an index when it began; and no flush reads a null and no entry
goes past the batch's end. -/
theorem stopped_has_written {sys : Sys (Shared ε) (Thread ε)}
    (hreach : (program times).Reach InTime (started sinks) sys) :
    (∃ written batched, sys.shared.logger.sinks
        = sinks.map (· ++ Logger.textFrom times 0 written)
      ∧ written ++ batched <+: sys.shared.reserved
      ∧ sys.shared.logger.entries = batched.length
      ∧ ∀ due, .stopper (.returned due) ∈ sys.threads →
          due ≤ written.length)
      ∧ (sys.shared.logger.flush times).isSome
      ∧ ∀ e, (sys.shared.logger.batchEntry times e).isSome := by
  have hinv := inv_of_reach hreach
  refine ⟨?_, ?_, ?_⟩
  · obtain ⟨written, batched, hkept, -, hall⟩ := hinv.told
    refine ⟨written, batched, hkept.sinks, ?_, hkept.entries, ?_⟩
    · rw [hall, hinv.ring.inOrder]
      exact List.take_prefix _ _
    · intro due hdue
      have hbuilt : sys.shared.logger.built = written.length := hkept.built
      have hfits := hinv.fits _ hdue
      exact Nat.le_trans hfits (Nat.le_of_eq hbuilt)
  · obtain ⟨l, hrun, -⟩ := hinv.told.flush
    rw [hrun]
    rfl
  · intro e
    obtain ⟨l, hrun, -⟩ := hinv.told.batchEntry e
    rw [hrun]
    rfl

/-- The line's run has written it. -/
theorem stopped_has_written_lastLine :
    ∃ (sys : Sys (Shared InlineEntry) (Thread InlineEntry))
      (written : List InlineEntry),
      .stopper (.returned 1) ∈ sys.threads ∧ 1 ≤ written.length
        ∧ sys.shared.logger.sinks
          = [Logger.textFrom (fun _ => bytes "12:00") 0 written] := by
  obtain ⟨sys, hreach, hstopped, -⟩ := reach_lastLine
  obtain ⟨⟨written, -, hsinks, -, -, hdue⟩, -⟩ := stopped_has_written hreach
  exact ⟨sys, written, hstopped, hdue 1 hstopped, hsinks⟩

end LogStop

end CgiWebServer
