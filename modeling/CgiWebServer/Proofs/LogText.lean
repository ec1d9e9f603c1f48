/-
The log writes everything, once and in order.

# The queue behind the logger

A pushed entry is in one of three places, and they are in push order:
`written` (built and sent to the sinks), `batched` (in the worker's
array) and `waiting` (in the ring). `Kept` ties a logger to the three
lists. `push` appends to the last, a pop moves the first waiting entry
to the end of the batch, a flush moves the batch behind what is written,
and the drain of `stopAndFlush` moves what waits there one by one, all
without changing their concatenation.

# The ring

The ring shows the waiting entries as long as they fit into it
(`Holds`). Pushes may overrun it; a pop must not meet that, and this is
the one thing asked of a sequence of calls (`PopsFit`).
-/
import Mathlib.Data.List.Induction
import CgiWebServer.Log.Logger

namespace CgiWebServer

variable {ε : Type}

-- ============================================================== the ring

namespace LogRing

/-- The ring shows what waits, as far as it fits. -/
structure Holds (r : LogRing ε) (waiting : List ε) : Prop where
  head : r.head = r.tail + waiting.length
  shows : waiting.length ≤ logBufferSize →
    r.slots.Shows r.tail fun i => waiting[i - r.tail]?

theorem Holds.push {r : LogRing ε} {waiting : List ε}
    (h : r.Holds waiting) (e : ε) : (r.push e).Holds (waiting ++ [e]) := by
  have hhead := h.head
  refine ⟨?_, fun hfits => ?_⟩
  · show r.head + 1 = r.tail + (waiting ++ [e]).length
    rw [List.length_append, List.length_singleton]
    omega
  · rw [List.length_append, List.length_singleton] at hfits
    refine ((h.shows (by omega)).put (show r.tail ≤ r.head by omega)
      (show r.head < r.tail + logBufferSize by omega) (some e)).congr ?_
    intro i hi _
    show _ = (waiting ++ [e])[i - r.tail]?
    by_cases hlast : i = r.head
    · subst hlast
      have hplace : r.head - r.tail = waiting.length := by omega
      rw [Function.update_self, hplace, List.getElem?_concat_length]
    · rw [Function.update_of_ne hlast]
      by_cases hold : i - r.tail < waiting.length
      · rw [List.getElem?_append_left hold]
      · rw [List.getElem?_eq_none (by omega), List.getElem?_eq_none (by
          rw [List.length_append, List.length_singleton]
          omega)]

/-- With nothing waiting a pop answers null. -/
theorem pop_of_nil {r : LogRing ε} (h : r.Holds []) :
    r.pop = (none, r) := by
  have hhead : r.head = r.tail := h.head
  have hpos : ¬ r.head - r.tail ≥ logBufferSize := by
    rw [hhead, Nat.sub_self]
    decide
  have htail : r.popTail = r.tail := if_neg hpos
  rw [LogRing.pop, htail, if_pos (Nat.le_of_eq hhead)]

/-- Otherwise it answers the first entry that waits, if the ring is not
overrun. -/
theorem pop_of_cons {r : LogRing ε} {e : ε} {rest : List ε}
    (h : r.Holds (e :: rest))
    (hfits : (e :: rest).length < logBufferSize) :
    ∃ r', r.pop = (some e, r') ∧ r'.tail = r.tail + 1 ∧ r'.Holds rest := by
  have hhead := h.head
  have hshows := h.shows (Nat.le_of_lt hfits)
  rw [List.length_cons] at hhead hfits
  have htail : r.popTail = r.tail := if_neg (by omega)
  have hfirst : r.slots.get r.tail = some e := by
    have hread := hshows r.tail (Nat.le_refl _) (by omega)
    simp only [Nat.sub_self, List.getElem?_cons_zero] at hread
    exact hread
  refine ⟨{ r with
    slots := r.slots.put r.tail none, tail := r.tail + 1 },
    ?_, rfl, ?_, fun _ => ?_⟩
  · rw [LogRing.pop, htail, if_neg (by omega), hfirst]
  · show r.head = r.tail + 1 + rest.length
    omega
  · have hnext : (e :: rest)[r.tail + logBufferSize - r.tail]? = none :=
      List.getElem?_eq_none (by
        rw [List.length_cons]
        omega)
    refine (hshows.take (by decide) hnext).congr fun i hi _ => ?_
    show (e :: rest)[i - r.tail]? = rest[i - (r.tail + 1)]?
    rw [show i - r.tail = i - (r.tail + 1) + 1 by omega,
      List.getElem?_cons_succ]

end LogRing

-- ============================================================ the logger

namespace Logger

variable [Entry ε] (times : Nat → Bytes)

/-- The texts of entries, built one after the other from a call of
`get_time` on. -/
def textFrom : Nat → List ε → Bytes
  | _, [] => []
  | n, e :: rest => (Entry.build (times n) e).1 ++ textFrom (n + 1) rest

theorem textFrom_append (a b : List ε) :
    ∀ n, textFrom times n (a ++ b)
      = textFrom times n a ++ textFrom times (n + a.length) b := by
  induction a with
  | nil => exact fun _ => rfl
  | cons e rest ih =>
      intro n
      rw [List.cons_append, textFrom, ih, textFrom, List.append_assoc,
        List.length_cons, Nat.add_right_comm, Nat.add_assoc]

/-- Where the pushed entries are. -/
structure Kept (sinks : List Bytes) (written batched waiting : List ε)
    (l : Logger ε) : Prop where
  built : l.built = written.length
  sinks : l.sinks = sinks.map (· ++ textFrom times 0 written)
  entries : l.entries = batched.length
  batch : ∀ i, i < batched.length → l.batch i = batched[i]?
  ring : l.ring.Holds waiting

variable {times} {sinks : List Bytes} {written batched waiting : List ε}
  {l : Logger ε}

variable (times) in
/-- The texts of the batch from index `i` on. -/
theorem buildBatch_apply (n : Nat) :
    ∀ (i : Nat) (logs : Bytes) (l : Logger ε), i + n = batched.length →
      (∀ j, i ≤ j → j < batched.length → l.batch j = batched[j]?) →
      ∃ batch, buildBatch times (List.range' i n) logs l
        = some (logs ++ textFrom times l.built (batched.drop i),
            { l with batch := batch, built := l.built + n }) := by
  induction n with
  | zero =>
      intro i logs l hlen _
      refine ⟨l.batch, ?_⟩
      rw [List.drop_eq_nil_of_le (by omega), textFrom, List.append_nil]
      rfl
  | succ n ih =>
      intro i logs l hlen hbatch
      have hi : i < batched.length := by omega
      have hentry : l.batch i = some batched[i] := by
        rw [hbatch i (Nat.le_refl _) hi, List.getElem?_eq_getElem hi]
      -- The built entry goes back into the batch, at an index the rest of
      -- the loop does not read again.
      obtain ⟨batch, hrest⟩ := ih (i + 1)
        (logs ++ (Entry.build (times l.built) batched[i]).1)
        { l with
          batch := Function.update l.batch i
            (some (Entry.build (times l.built) batched[i]).2)
          built := l.built + 1 } (by omega) (by
        intro j hj hj'
        show Function.update l.batch i _ j = _
        rw [Function.update_of_ne (by omega)]
        exact hbatch j (by omega) hj')
      refine ⟨batch, ?_⟩
      rw [List.range'_succ, buildBatch, hentry]
      simp only [hrest]
      rw [List.drop_eq_getElem_cons hi, textFrom, List.append_assoc,
        Nat.add_right_comm, Nat.add_assoc]

/-- A flush moves the batch behind what is written. -/
theorem Kept.flush (h : Kept times sinks written batched waiting l) :
    ∃ l', flush times l = some l'
      ∧ Kept times sinks (written ++ batched) [] waiting l'
      ∧ l'.joinable = l.joinable := by
  have hbuilt := buildBatch_apply times batched.length 0 [] l
    (Nat.zero_add _) fun j _ hj => h.batch j hj
  obtain ⟨batch, hbuild⟩ := hbuilt
  rw [← h.entries, ← List.range_eq_range', List.nil_append,
    List.drop_zero] at hbuild
  refine ⟨{ ({ l with batch := batch, built := l.built + l.entries } :
      Logger ε).write (textFrom times l.built batched) with entries := 0 },
    ?_, ⟨?_, ?_, rfl, fun i hi => absurd hi (Nat.not_lt_zero i),
    h.ring⟩, rfl⟩
  · rw [Logger.flush, hbuild]
    rfl
  · show l.built + l.entries = (written ++ batched).length
    rw [h.built, h.entries, List.length_append]
  · show l.sinks.map (· ++ textFrom times l.built batched) = _
    rw [h.sinks, List.map_map, h.built, textFrom_append, Nat.zero_add]
    refine List.map_congr_left fun text _ => ?_
    exact List.append_assoc _ _ _

/-- A flush that has nothing to do does nothing. -/
theorem Kept.flushPending (h : Kept times sinks written batched waiting l) :
    ∃ l', flushPending times l = some l'
      ∧ Kept times sinks (written ++ batched) [] waiting l'
      ∧ l'.joinable = l.joinable := by
  unfold Logger.flushPending
  by_cases hpos : l.entries > 0
  · rw [if_pos hpos]
    exact h.flush
  · have hnone : batched = [] := by
      have hentries := h.entries
      exact List.length_eq_zero_iff.mp (by omega)
    subst hnone
    rw [if_neg hpos, List.append_nil]
    exact ⟨l, rfl, h, rfl⟩

/-- A timeout flushes what is in the batch. -/
theorem Kept.flushTimeout (h : Kept times sinks written batched waiting l)
    (timeout : Bool) :
    ∃ written' batched' l',
      Logger.flushTimeout times timeout l = some l'
        ∧ Kept times sinks written' batched' waiting l'
        ∧ written' ++ batched' = written ++ batched
        ∧ batched'.length ≤ batched.length := by
  by_cases hflush : (decide (l.entries > 0) && timeout) = true
  · obtain ⟨l', hrun, hkept, -⟩ := h.flush
    refine ⟨written ++ batched, [], l', ?_, hkept, List.append_nil _,
      Nat.zero_le _⟩
    rw [Logger.flushTimeout, if_pos hflush]
    exact hrun
  · exact ⟨written, batched, l, if_neg hflush, h, rfl, Nat.le_refl _⟩

/-- An entry taken from the ring is the batch's next one. -/
theorem Kept.store {before : List ε}
    (h : Kept times sinks written batched before l) (e : ε)
    {ring : LogRing ε} (hring : ring.Holds waiting) :
    Kept times sinks written (batched ++ [e]) waiting
      { l with
        ring := ring
        batch := Function.update l.batch l.entries (some e)
        entries := l.entries + 1 } := by
  have hentries := h.entries
  refine ⟨h.built, h.sinks, ?_, fun i hi => ?_, hring⟩
  · show l.entries + 1 = (batched ++ [e]).length
    rw [List.length_append, List.length_singleton, hentries]
  · rw [List.length_append, List.length_singleton] at hi
    show Function.update l.batch l.entries (some e) i = _
    by_cases hlast : i = l.entries
    · rw [hlast, Function.update_self, hentries,
        List.getElem?_concat_length]
    · rw [Function.update_of_ne hlast, List.getElem?_append_left (by omega)]
      exact h.batch i (by omega)

/-- The worker's turn moves entries along, and its batch stays short. -/
theorem Kept.processBatch
    (h : Kept times sinks written batched waiting l)
    (hshort : batched.length < entryBatchSize)
    (hfits : waiting.length < logBufferSize) (timeout : Bool) :
    ∃ written' batched' waiting' l',
      Logger.processBatch times timeout l = some l'
        ∧ Kept times sinks written' batched' waiting' l'
        ∧ batched'.length < entryBatchSize
        ∧ written' ++ (batched' ++ waiting')
          = written ++ (batched ++ waiting) := by
  obtain ⟨w, b, m, hfirst, hkept, hsame, hle⟩ := h.flushTimeout timeout
  simp only [Logger.processBatch, hfirst, Option.bind_eq_bind,
    Option.bind_some]
  -- Without an entry the batch stays; with one it grows, and is flushed
  -- when it is full.
  cases waiting with
  | nil =>
      rw [LogRing.pop_of_nil hkept.ring]
      refine ⟨w, b, [], m, rfl, hkept, by omega, ?_⟩
      rw [← List.append_assoc, hsame, List.append_assoc]
  | cons e rest =>
      obtain ⟨ring, hpop, -, hring⟩ := LogRing.pop_of_cons hkept.ring hfits
      have hstored := hkept.store e hring
      have hentries := hkept.entries
      have hall : w ++ (b ++ [e] ++ rest)
          = written ++ (batched ++ e :: rest) := by
        rw [List.append_assoc b, List.singleton_append,
          ← List.append_assoc, hsame, List.append_assoc]
      simp only [hpop]
      rw [if_pos (show m.entries < entryBatchSize by omega)]
      by_cases hfull : m.entries + 1 ≥ entryBatchSize
      · rw [if_pos hfull]
        obtain ⟨l', hrun, hflushed, -⟩ := hstored.flush
        refine ⟨w ++ (b ++ [e]), [], rest, l', hrun, hflushed,
          Nat.zero_lt_succ _, ?_⟩
        rw [List.nil_append, List.append_assoc]
        exact hall
      · rw [if_neg hfull]
        refine ⟨w, b ++ [e], rest, _, rfl, hstored, ?_, hall⟩
        rw [List.length_append, List.length_singleton]
        omega

/-- The drain writes what waits, one by one, and ends. -/
theorem Kept.drain {fuel : Nat} (h : Kept times sinks written [] waiting l)
    (hfits : waiting.length < logBufferSize)
    (hfuel : waiting.length < fuel) :
    ∃ l', Logger.drain times fuel l = some l'
      ∧ Kept times sinks (written ++ waiting) [] [] l' := by
  induction waiting generalizing fuel written l with
  | nil =>
      obtain ⟨fuel, rfl⟩ : ∃ k, fuel = k + 1 :=
        ⟨fuel - 1, (Nat.sub_add_cancel hfuel).symm⟩
      refine ⟨l, ?_, (List.append_nil written).symm ▸ h⟩
      rw [Logger.drain, LogRing.pop_of_nil h.ring]
  | cons e rest ih =>
      rw [List.length_cons] at hfuel
      obtain ⟨fuel, rfl⟩ : ∃ k, fuel = k + 1 := ⟨fuel - 1, by omega⟩
      obtain ⟨ring, hpop, -, hring⟩ := LogRing.pop_of_cons h.ring hfits
      -- drain writes each entry at once, past the batch.
      have hnext : Kept times sinks (written ++ [e]) [] rest
          ({ l with ring := ring, built := l.built + 1 }.write
            (Entry.build (times l.built) e).1) := by
        refine ⟨?_, ?_, h.entries, fun i hi => absurd hi (Nat.not_lt_zero i),
          hring⟩
        · show l.built + 1 = (written ++ [e]).length
          rw [h.built, List.length_append, List.length_singleton]
        · show l.sinks.map (· ++ (Entry.build (times l.built) e).1) = _
          rw [h.sinks, List.map_map, h.built, textFrom_append, Nat.zero_add,
            textFrom, textFrom, List.append_nil]
          exact List.map_congr_left fun text _ => List.append_assoc _ _ _
      rw [List.length_cons] at hfits
      have hshort : rest.length < fuel := Nat.lt_of_succ_lt_succ hfuel
      obtain ⟨l', hrun, hkept⟩ := ih hnext (by omega) hshort
      refine ⟨l', ?_, ?_⟩
      · rw [Logger.drain, hpop]
        exact hrun
      · rw [List.append_assoc, List.singleton_append] at hkept
        exact hkept

/-- The join flushes what the worker has. -/
theorem Kept.joinWorker (h : Kept times sinks written batched waiting l) :
    ∃ written' batched' l',
      Logger.joinWorker times l = some l'
        ∧ Kept times sinks written' batched' waiting l'
        ∧ written' ++ batched' = written ++ batched := by
  by_cases hjoinable : l.joinable = true
  · obtain ⟨m, hrun, hkept, -⟩ := h.flushPending
    refine ⟨written ++ batched, [], { m with joinable := false }, ?_,
      ⟨hkept.built, hkept.sinks, hkept.entries, hkept.batch, hkept.ring⟩,
      List.append_nil _⟩
    rw [Logger.joinWorker, if_pos hjoinable, hrun]
    rfl
  · exact ⟨written, batched, l, if_neg hjoinable, h, rfl⟩

/-- `stopAndFlush` leaves nothing behind. -/
theorem Kept.stopAndFlush
    (h : Kept times sinks written batched waiting l)
    (hfits : waiting.length < logBufferSize) :
    ∃ l', Logger.stopAndFlush times l = some l'
      ∧ Kept times sinks (written ++ (batched ++ waiting)) [] [] l' := by
  obtain ⟨w, b, m, hfirst, hkept, hsame⟩ := h.joinWorker
  obtain ⟨m', hsecond, hkept', -⟩ := hkept.flushPending
  have hhead := hkept'.ring.head
  obtain ⟨l', hdrain, hdone⟩ := hkept'.drain hfits
    (show waiting.length < m'.ring.head - m'.ring.tail + 1 by omega)
  refine ⟨l', ?_, ?_⟩
  · simp only [Logger.stopAndFlush, hfirst, hsecond, Option.bind_eq_bind,
      Option.bind_some]
    exact hdrain
  · rw [hsame, List.append_assoc] at hdone
    exact hdone

-- ============================================================= sequences

/-- The entries a sequence of calls pushes. -/
def pushed : List (Op ε) → List ε
  | [] => []
  | .push e :: rest => e :: pushed rest
  | .processBatch _ :: rest => pushed rest
  | .stopAndFlush :: rest => pushed rest

def Op.pops : Op ε → Bool
  | .push _ => false
  | .processBatch _ => true
  | .stopAndFlush => true

omit [Entry ε] in
theorem pushed_append (a b : List (Op ε)) :
    pushed (a ++ b) = pushed a ++ pushed b := by
  induction a with
  | nil => rfl
  | cons op rest ih =>
      cases op with
      | push e => exact congrArg (e :: ·) ih
      | processBatch timeout => exact ih
      | stopAndFlush => exact ih

/-- Fewer entries than the ring has places wait wherever a call pops. A
drain pops with ever fewer waiting, so its first pop speaks for all. -/
def PopsFit (times : Nat → Bytes) (ops : List (Op ε)) (l : Logger ε) :
    Prop :=
  ∀ before op after, ops = before ++ op :: after → op.pops = true →
    ∀ m, run times before l = some m →
      m.ring.head - m.ring.tail < logBufferSize

theorem PopsFit.before {a b : List (Op ε)} (h : PopsFit times (a ++ b) l) :
    PopsFit times a l := by
  intro before op after hsplit hpops
  refine h before op (after ++ b) ?_ hpops
  rw [hsplit, List.append_assoc, List.cons_append]

theorem run_snoc (ops : List (Op ε)) (op : Op ε) (l : Logger ε) :
    run times (ops ++ [op]) l
      = (run times ops l).bind fun m => apply times m op := by
  rw [run, List.foldlM_append, run]
  cases ops.foldlM (apply times) l with
  | none => rfl
  | some m =>
      show ((apply times m op).bind fun m' => some m') = apply times m op
      exact Option.bind_fun_some _

/-- A logger nothing was pushed to. -/
def idle (sinks : List Bytes) : Logger ε := { sinks := sinks }

/-- Every sequence of calls whose pops fit runs, and keeps its entries in
order. -/
theorem kept_run (sinks : List Bytes) {ops : List (Op ε)}
    (hfits : PopsFit times ops (idle sinks)) :
    ∃ written batched waiting l,
      run times ops (idle sinks) = some l
        ∧ Kept times sinks written batched waiting l
        ∧ batched.length < entryBatchSize
        ∧ written ++ (batched ++ waiting) = pushed ops := by
  induction ops using List.reverseRecOn with
  | nil =>
      refine ⟨[], [], [], idle sinks, rfl, ⟨rfl, ?_, rfl,
        fun i hi => absurd hi (Nat.not_lt_zero i), rfl, fun _ => ?_⟩,
        Nat.zero_lt_succ _, rfl⟩
      · show sinks = sinks.map (· ++ [])
        simp only [List.append_nil, List.map_id']
      · exact Ring.Slots.shows_empty 0
  | append_singleton ops op ih =>
      obtain ⟨w, b, q, m, hrun, hkept, hshort, hall⟩ := ih hfits.before
      -- Only pops ask for room, and each of them is asked at the moment it
      -- runs.
      have hroom : op.pops = true → q.length < logBufferSize := by
        intro hpops
        have hlt := hfits ops op [] rfl hpops m hrun
        have hhead := hkept.ring.head
        omega
      rw [run_snoc, hrun, pushed_append, ← hall]
      cases op with
      | push e =>
          refine ⟨w, b, q ++ [e], _, rfl, ⟨hkept.built, hkept.sinks,
            hkept.entries, hkept.batch, hkept.ring.push e⟩, hshort, ?_⟩
          show w ++ (b ++ (q ++ [e])) = w ++ (b ++ q) ++ [e]
          simp only [List.append_assoc]
      | processBatch timeout =>
          obtain ⟨w', b', q', l', hstep, hkept', hshort', hsame⟩ :=
            hkept.processBatch hshort (hroom rfl) timeout
          refine ⟨w', b', q', l', hstep, hkept', hshort', ?_⟩
          rw [hsame]
          exact (List.append_nil _).symm
      | stopAndFlush =>
          obtain ⟨l', hstep, hkept'⟩ := hkept.stopAndFlush (hroom rfl)
          exact ⟨w ++ (b ++ q), [], [], l', hstep, hkept',
            Nat.zero_lt_succ _, rfl⟩

/-- A sequence of calls that pushes fewer entries than the ring has
places fits wherever it pops. -/
theorem popsFit_of_few (sinks : List Bytes) {ops : List (Op ε)}
    (hfew : (pushed ops).length < logBufferSize) :
    PopsFit times ops (idle sinks) := by
  induction ops using List.reverseRecOn with
  | nil =>
      intro before op after hsplit
      exact absurd hsplit.symm (by simp)
  | append_singleton ops last ih =>
      rw [pushed_append, List.length_append] at hfew
      have hfits := ih (by omega)
      intro before op after hsplit hpops m hrun
      rcases List.eq_nil_or_concat after with rfl | ⟨rest, z, rfl⟩
      · -- the last call: what waits before it has been pushed before it
        obtain ⟨rfl, -⟩ := List.append_inj' hsplit rfl
        obtain ⟨w, b, q, l, hrun', hkept, -, hall⟩ :=
          kept_run sinks hfits
        obtain rfl : l = m := Option.some.inj (hrun'.symm.trans hrun)
        have hcount := congrArg List.length hall
        rw [List.length_append, List.length_append] at hcount
        have hhead := hkept.ring.head
        omega
      · rw [List.concat_eq_append, ← List.cons_append,
          ← List.append_assoc] at hsplit
        obtain ⟨rfl, -⟩ := List.append_inj' hsplit rfl
        exact hfits before op rest rfl hpops m hrun

/-- What the sinks have received when the logger has stopped: the texts
of all pushed entries, each once, in push order. No call along the way
stores past the batch or reads a null, and between two calls the batch
has room. -/
theorem stopped_log_is_complete (times : Nat → Bytes) (sinks : List Bytes)
    (ops : List (Op ε))
    (hfits : PopsFit times (ops ++ [.stopAndFlush]) (idle sinks)) :
    (∃ l, run times (ops ++ [.stopAndFlush]) (idle sinks) = some l
        ∧ l.sinks = sinks.map (· ++ textFrom times 0 (pushed ops)))
      ∧ ∀ before after, ops = before ++ after →
        ∃ l, run times before (idle sinks) = some l
          ∧ l.entries < entryBatchSize := by
  constructor
  · obtain ⟨w, b, q, m, hrun, hkept, -, hall⟩ :=
      kept_run sinks hfits.before
    have hlt := hfits ops .stopAndFlush [] rfl rfl m hrun
    have hhead := hkept.ring.head
    obtain ⟨l, hstep, hdone⟩ := hkept.stopAndFlush (by omega)
    refine ⟨l, ?_, ?_⟩
    · rw [run_snoc, hrun]
      exact hstep
    · rw [hdone.sinks, hall]
  · intro before after hsplit
    subst hsplit
    rw [List.append_assoc] at hfits
    obtain ⟨w, b, q, m, hrun, hkept, hshort, -⟩ :=
      kept_run sinks hfits.before
    exact ⟨m, hrun, by rw [hkept.entries]; exact hshort⟩

/-- Two lines, one of them batched before the logger stops, twice. -/
theorem stopped_log_is_complete_two :
    ∃ l, run (fun _ => bytes "12:00:00")
        [.push (InlineEntry.mk .info (bytes "server") (bytes "starting")
            [] 0 []),
          .processBatch false,
          .push (InlineEntry.mk .warn (bytes "config") (bytes "no host")
            (bytes "config.cpp") 12 (bytes "loadHostIP")),
          .stopAndFlush, .stopAndFlush] (idle [[]]) = some l
        ∧ l.sinks = [bytes "[12:00:00] INFO [server] starting\n"
            ++ bytes "[12:00:00] WARN [config] no host (config.cpp:12, "
            ++ bytes "loadHostIP)\n"] := by
  obtain ⟨l, hrun, hsinks⟩ := (stopped_log_is_complete
    (fun _ => bytes "12:00:00") [[]]
    [.push (InlineEntry.mk .info (bytes "server") (bytes "starting") [] 0 []),
      .processBatch false,
      .push (InlineEntry.mk .warn (bytes "config") (bytes "no host")
        (bytes "config.cpp") 12 (bytes "loadHostIP")),
      .stopAndFlush]
    (popsFit_of_few _ (by decide))).1
  exact ⟨l, hrun, hsinks.trans (by decide)⟩

end Logger

end CgiWebServer
