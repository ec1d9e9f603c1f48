/-
One consumer at a time, where the logger is started once and stopped by
one caller at a time.

`run` and `stopAndFlush` both pop, write the batch and send to the sinks,
and no lock keeps them apart. What does is the join: a stopper goes on
only when the worker's `run` has returned. The counts of live workers and
of callers within `stopAndFlush` say so (`Control`), whatever the ring
holds.
-/
import CgiWebServer.Log.Shutdown

namespace CgiWebServer

-- ================================================================ the join

namespace Logger

variable {ε : Type} [Entry ε] {times : Nat → Bytes}

theorem buildBatch_joinable {is : List Nat} :
    ∀ {logs logs' : Bytes} {l l' : Logger ε},
      buildBatch times is logs l = some (logs', l') →
        l'.joinable = l.joinable := by
  induction is with
  | nil =>
      intro logs logs' l l' h
      cases h
      rfl
  | cons i rest ih =>
      intro logs logs' l l' h
      rw [buildBatch] at h
      cases hentry : l.batch i with
      | none =>
          rw [hentry] at h
          cases h
      | some e =>
          rw [hentry] at h
          have hrest := ih h
          exact hrest

/-- A flush does not touch the join. -/
theorem flush_joinable {l l' : Logger ε} (h : flush times l = some l') :
    l'.joinable = l.joinable := by
  rw [flush] at h
  obtain ⟨⟨logs, built⟩, hbuild, hwrite⟩ := Option.bind_eq_some_iff.mp h
  cases hwrite
  have hsame := buildBatch_joinable hbuild
  exact hsame

theorem flushPending_joinable {l l' : Logger ε}
    (h : flushPending times l = some l') : l'.joinable = l.joinable := by
  unfold flushPending at h
  split at h
  · exact flush_joinable h
  · cases h
    rfl

theorem flushTimeout_joinable {timeout : Bool} {l l' : Logger ε}
    (h : flushTimeout times timeout l = some l') :
    l'.joinable = l.joinable := by
  unfold flushTimeout at h
  split at h
  · exact flush_joinable h
  · cases h
    rfl

theorem batchEntry_joinable {e : ε} {l l' : Logger ε}
    (h : batchEntry times e l = some l') : l'.joinable = l.joinable := by
  rw [batchEntry] at h
  split at h
  · simp only at h
    split at h
    · have hsame := flush_joinable h
      exact hsame
    · cases h
      rfl
  · cases h

end Logger

namespace LogStop

open Interleave

variable {ε : Type}

-- ====================================================== threads by kind

/-- Within `run`. -/
def isAlive : Thread ε → Bool
  | .worker .created | .worker .returned => false
  | .worker _ => true
  | _ => false

/-- Past the first step of `run`. -/
def isBegun : Thread ε → Bool
  | .worker .created => false
  | .worker _ => true
  | _ => false

/-- Behind the join. -/
def isBehind : Thread ε → Bool
  | .stopper (.flushing _) | .stopper (.draining _) => true
  | _ => false

/-- Where a thread may be inside `pop`. -/
def isPopping : Thread ε → Bool
  | .worker .popping | .stopper (.draining _) => true
  | _ => false

-- ============================================================ the control

variable [Entry ε] {times : Nat → Bytes} {sinks : List Bytes}

omit [Entry ε] in
/-- Who may be where: there is one worker, which lives from its first
step to its return; one caller is within `stopAndFlush`; behind the join
the worker has returned; and the consumer's place is some thread's. -/
structure Control (sys : Sys (Shared ε) (Thread ε)) : Prop where
  worker : sys.threads.countP isWorker ≤ 1
  alive : sys.threads.countP isAlive + sys.shared.exited.toNat
    = sys.threads.countP isBegun
  stoppers : sys.threads.countP isStopping ≤ 1
  joined : sys.shared.logger.joinable = false → sys.shared.exited = true
  behind : ∀ t ∈ sys.threads, isBehind t = true →
    sys.shared.exited = true
  place : sys.shared.consumer = .idle
    ∨ 0 < sys.threads.countP isPopping

namespace Control

variable {sys : Sys (Shared ε) (Thread ε)} {i : Nat} {a : Move}
  {t t' : Thread ε} {m' : Shared ε}

omit [Entry ε] in
/-- The rule for one move: what the thread and the flags need. -/
theorem move (h : Control sys) (ht : sys.threads[i]? = some t)
    (hworker : isWorker t' = isWorker t)
    (halive : (isAlive t').toNat + m'.exited.toNat + (isBegun t).toNat
      = (isAlive t).toNat + sys.shared.exited.toNat + (isBegun t').toNat)
    (hstopper : isStopping t' = true → isStopping t = true
      ∨ sys.threads.countP isStopping = 0)
    (hjoined : m'.logger.joinable = false → m'.exited = true)
    (hexited : sys.shared.exited = true → m'.exited = true)
    (hbehind : isBehind t' = true → m'.exited = true)
    (hplace : m'.consumer = .idle ∨ isPopping t' = true
      ∨ (m'.consumer = sys.shared.consumer ∧ isPopping t = false)) :
    Control ⟨m', sys.threads.set i t'⟩ := by
  have hworkers := count_set isWorker ht t'
  have hlive := count_set isAlive ht t'
  have hbegun := count_set isBegun ht t'
  have hstopping := count_set isStopping ht t'
  have hpopping := count_set isPopping ht t'
  have hworker' := h.worker
  have halive' := h.alive
  have hstoppers' := h.stoppers
  -- Every count changes by what the one thread was and what it is.
  refine ⟨?_, ?_, ?_, hjoined, ?_, ?_⟩
  · rw [hworker] at hworkers
    show (sys.threads.set i t').countP isWorker ≤ 1
    omega
  · show (sys.threads.set i t').countP isAlive + m'.exited.toNat
      = (sys.threads.set i t').countP isBegun
    omega
  · show (sys.threads.set i t').countP isStopping ≤ 1
    have hone := Bool.toNat_le (isStopping t')
    cases hin : isStopping t' with
    | false =>
        rw [hin, Bool.toNat_false] at hstopping
        omega
    | true =>
        rw [hin, Bool.toNat_true] at hstopping
        rcases hstopper hin with hwas | hnone
        · rw [hwas, Bool.toNat_true] at hstopping
          omega
        · omega
  · exact forall_set (fun u hu hold => hexited (h.behind u hu hold)) hbehind
  · rcases hplace with hidle | hin | ⟨hsame, hout⟩
    · exact Or.inl hidle
    · rw [hin, Bool.toNat_true] at hpopping
      have hlost := Bool.toNat_le (isPopping t)
      have hmem : t' ∈ sys.threads.set i t' :=
        List.mem_set (List.getElem?_eq_some_iff.mp ht).1 t'
      exact Or.inr (List.countP_pos_iff.mpr ⟨t', hmem, hin⟩)
    · rw [hout, Bool.toNat_false] at hpopping
      rcases h.place with hidle | hsome
      · exact Or.inl (hsame.trans hidle)
      · right
        show 0 < (sys.threads.set i t').countP isPopping
        omega

omit [Entry ε] in
/-- A worker that has begun is a worker, so there is one at most. -/
theorem begun_le (h : Control sys) : sys.threads.countP isBegun ≤ 1 := by
  refine Nat.le_trans (List.countP_mono_left fun u _ hbegun => ?_) h.worker
  rcases u with ⟨e, phase⟩ | phase | phase
  · cases hbegun
  · rfl
  · cases hbegun

omit [Entry ε] in
/-- A live worker has not returned. -/
theorem not_exited (h : Control sys) (ht : sys.threads[i]? = some t)
    (halive : isAlive t = true) : sys.shared.exited = false := by
  have hpos : 0 < sys.threads.countP isAlive :=
    List.countP_pos_iff.mpr ⟨t, List.mem_of_getElem? ht, halive⟩
  have hcount := h.alive
  have hone := h.begun_le
  cases hexited : sys.shared.exited with
  | false => rfl
  | true =>
      rw [hexited, Bool.toNat_true] at hcount
      omega

omit [Entry ε] in
/-- Once a caller is behind the join no worker lives. -/
theorem none_alive (h : Control sys) (ht : t ∈ sys.threads)
    (hbehind : isBehind t = true) : sys.threads.countP isAlive = 0 := by
  have hcount := h.alive
  have hone := h.begun_le
  rw [h.behind t ht hbehind, Bool.toNat_true] at hcount
  omega

omit [Entry ε] in
/-- A null leaves the consumer's place. -/
theorem consumer_of_null {m : Shared ε}
    (hnull : m.logger.ring.popTail ≥ m.logger.ring.head) :
    (m.withRing m.ring.load).consumer = m.consumer := by
  have hload : m.ring.load.consumer = m.ring.consumer := by
    rw [LogRing.Shared.load,
      if_pos (show m.ring.ring.popTail ≥ m.ring.ring.head from hnull)]
  exact hload

theorem work {phase phase' : WorkerPhase} (h : Control sys)
    (ht : sys.threads[i]? = some (.worker phase))
    (hstep : WorkerStep times sys.shared a phase m' phase') :
    Control ⟨m', sys.threads.set i (.worker phase')⟩ := by
  cases hstep with
  | begin =>
      refine h.move ht rfl ?_ nofun h.joined id nofun
        (Or.inr (Or.inr ⟨rfl, rfl⟩))
      show 1 + _ + 0 = 0 + _ + 1
      omega
  | goOn =>
      exact h.move ht rfl rfl nofun h.joined id nofun
        (Or.inr (Or.inr ⟨rfl, rfl⟩))
  | leave =>
      exact h.move ht rfl rfl nofun h.joined id nofun
        (Or.inr (Or.inr ⟨rfl, rfl⟩))
  | turn hflush =>
      refine h.move ht rfl rfl nofun (fun hj => ?_) id nofun
        (Or.inr (Or.inl rfl))
      exact h.joined ((Logger.flushTimeout_joinable hflush).symm.trans hj)
  | null hidle hnull =>
      exact h.move ht rfl rfl nofun h.joined id nofun
        (Or.inl ((consumer_of_null hnull).trans hidle))
  | load =>
      exact h.move ht rfl rfl nofun h.joined id nofun (Or.inr (Or.inl rfl))
  | advance =>
      exact h.move ht rfl rfl nofun h.joined id nofun (Or.inr (Or.inl rfl))
  | empty => exact h.move ht rfl rfl nofun h.joined id nofun (Or.inl rfl)
  | take _ _ hbatch =>
      refine h.move ht rfl rfl nofun (fun hj => ?_) id nofun (Or.inl rfl)
      exact h.joined ((Logger.batchEntry_joinable hbatch).symm.trans hj)
  | finish =>
      -- the one worker gives up its life for `exited`
      refine h.move ht rfl ?_ nofun (fun _ => rfl) (fun _ => rfl) nofun
        (Or.inr (Or.inr ⟨rfl, rfl⟩))
      rw [h.not_exited ht rfl]
      rfl

theorem stop {phase phase' : StopPhase} (h : Control sys)
    (hserial : Serial sys (.move i a))
    (ht : sys.threads[i]? = some (.stopper phase))
    (hstep : StopperStep times sys.shared a phase m' phase') :
    Control ⟨m', sys.threads.set i (.stopper phase')⟩ := by
  have hbehind := h.behind _ (List.mem_of_getElem? ht)
  cases hstep with
  | stop =>
      have hnone : sys.threads.countP isStopping = 0 :=
        of_decide_eq_true hserial
      exact h.move ht rfl rfl (fun _ => Or.inr hnone) h.joined id nofun
        (Or.inr (Or.inr ⟨rfl, rfl⟩))
  -- Past the join the worker has ended, which is what lets the stopper
  -- drain alone.
  | join _ hexited =>
      exact h.move ht rfl rfl (fun _ => Or.inl rfl) (fun _ => hexited) id
        (fun _ => hexited) (Or.inr (Or.inr ⟨rfl, rfl⟩))
  | joined hjoined =>
      exact h.move ht rfl rfl (fun _ => Or.inl rfl) h.joined id
        (fun _ => h.joined hjoined) (Or.inr (Or.inr ⟨rfl, rfl⟩))
  | flush hflush =>
      refine h.move ht rfl rfl (fun _ => Or.inl rfl) (fun hj => ?_) id
        (fun _ => hbehind rfl) (Or.inr (Or.inl rfl))
      exact h.joined ((Logger.flushPending_joinable hflush).symm.trans hj)
  -- A pop that finds nothing leaves the consumer idle, and the drain is
  -- over.
  | null hidle hnull =>
      exact h.move ht rfl rfl nofun h.joined id nofun
        (Or.inl ((consumer_of_null hnull).trans hidle))
  | load =>
      exact h.move ht rfl rfl (fun _ => Or.inl rfl) h.joined id
        (fun _ => hbehind rfl) (Or.inr (Or.inl rfl))
  | advance =>
      exact h.move ht rfl rfl (fun _ => Or.inl rfl) h.joined id
        (fun _ => hbehind rfl) (Or.inr (Or.inl rfl))
  | empty => exact h.move ht rfl rfl nofun h.joined id nofun (Or.inl rfl)
  | write =>
      exact h.move ht rfl rfl (fun _ => Or.inl rfl) h.joined id
        (fun _ => hbehind rfl) (Or.inr (Or.inl rfl))

theorem arrive (h : Control sys) {r : Caller ε}
    (hserial : Serial sys (.arrive r)) :
    Control ⟨sys.shared, sys.threads ++ [(program times).start r]⟩ := by
  refine ⟨?_, ?_, ?_, h.joined, ?_, ?_⟩
  · cases r with
    | work =>
        have hnone : sys.threads.countP isWorker = 0 :=
          of_decide_eq_true hserial
        show (sys.threads ++ [_]).countP isWorker ≤ 1
        rw [List.countP_append, hnone]
        exact Nat.le_refl 1
    | push e =>
        rw [count_arrive isWorker _ rfl]
        exact h.worker
    | stop =>
        rw [count_arrive isWorker _ rfl]
        exact h.worker
  · rw [count_arrive isAlive _ (by cases r <;> rfl),
      count_arrive isBegun _ (by cases r <;> rfl)]
    exact h.alive
  · rw [count_arrive isStopping _ (by cases r <;> rfl)]
    exact h.stoppers
  · exact forall_arrive h.behind (by cases r <;> nofun)
  · rw [count_arrive isPopping _ (by cases r <;> rfl)]
    exact h.place

/-- Any move. -/
theorem step (h : Control sys) (hserial : Serial sys (.move i a))
    (ht : sys.threads[i]? = some t)
    (hstep : LogStop.step times a sys.shared t = some (m', t')) :
    Control ⟨m', sys.threads.set i t'⟩ := by
  cases t with
  | producer e phase =>
      obtain ⟨⟨m', phase'⟩, hpush, hnext⟩ := Option.map_eq_some_iff.mp hstep
      cases hnext
      cases pushStep_of hpush with
      | fetchAdd =>
          exact h.move ht rfl rfl nofun h.joined id nofun
            (Or.inr (Or.inr ⟨rfl, rfl⟩))
      | store =>
          exact h.move ht rfl rfl nofun h.joined id nofun
            (Or.inr (Or.inr ⟨rfl, rfl⟩))
  | worker phase =>
      obtain ⟨⟨m', phase'⟩, hwork, hnext⟩ := Option.map_eq_some_iff.mp hstep
      cases hnext
      exact h.work ht (workerStep_of hwork)
  | stopper phase =>
      obtain ⟨⟨m', phase'⟩, hstop, hnext⟩ := Option.map_eq_some_iff.mp hstep
      cases hnext
      exact h.stop hserial ht (stopperStep_of hstop)

omit [Entry ε] in
/-- The logger before any thread has arrived. -/
theorem start : Control (⟨started sinks, []⟩ : Sys (Shared ε) (Thread ε)) :=
  ⟨Nat.zero_le 1, rfl, Nat.zero_le 1, nofun, by simp, Or.inl rfl⟩

end Control

theorem control_of_reach {sys : Sys (Shared ε) (Thread ε)}
    (hreach : (program times).Reach Serial (started sinks) sys) :
    Control sys := by
  refine hreach.invariant Control.start ?_ ?_
  · intro sys r h hserial
    exact h.arrive hserial
  · intro sys i a t m' t' h hserial ht hstep
    exact h.step hserial ht hstep

/-- In every interleaving with one `start` and no two overlapping calls
of `stopAndFlush`, one thread at a time consumes: no worker lives once a
caller is behind the join, at most one thread is where it pops, and the
place in `pop` is that of one thread. -/
theorem one_consumer {sys : Sys (Shared ε) (Thread ε)}
    (hreach : (program times).Reach Serial (started sinks) sys) :
    (∀ t ∈ sys.threads, isBehind t = true →
        sys.threads.countP isAlive = 0)
      ∧ sys.threads.countP isPopping ≤ 1
      ∧ (sys.shared.consumer ≠ .idle →
          sys.threads.countP isPopping = 1) := by
  have h := control_of_reach hreach
  have hbegun := h.begun_le
  have halive := h.alive
  have hstoppers := h.stoppers
  have hone : sys.threads.countP isPopping ≤ 1 := by
    by_cases hsome : ∃ t ∈ sys.threads, isBehind t = true
    · -- the worker is gone: what pops is the one caller
      obtain ⟨t, ht, hb⟩ := hsome
      have hnone := List.countP_eq_zero.mp (h.none_alive ht hb)
      have hle : sys.threads.countP isPopping
          ≤ sys.threads.countP isStopping := by
        refine List.countP_mono_left fun u hu hpopping => ?_
        rcases u with ⟨e, phase⟩ | phase | phase
        · cases hpopping
        · cases phase with
          | popping => exact absurd rfl (hnone _ hu)
          | _ => cases hpopping
        · cases phase with
          | draining due => rfl
          | _ => cases hpopping
      omega
    · -- nobody drains: what pops is the one worker
      have hle : sys.threads.countP isPopping
          ≤ sys.threads.countP isAlive := by
        refine List.countP_mono_left fun u hu hpopping => ?_
        rcases u with ⟨e, phase⟩ | phase | phase
        · cases hpopping
        · cases phase with
          | popping => rfl
          | _ => cases hpopping
        · cases phase with
          | draining due => exact absurd ⟨_, hu, rfl⟩ hsome
          | _ => cases hpopping
      omega
  refine ⟨fun t ht hb => h.none_alive ht hb, hone, fun hplace => ?_⟩
  rcases h.place with hidle | hsome
  · exact absurd hidle hplace
  · omega

/-- One line, pushed while the worker has yet to look at `running`, and a
stop. -/
def lastLine : List (Action (Caller InlineEntry) Move) :=
  [.arrive .work,
    .arrive (.push ⟨.info, bytes "server", bytes "bye", [], 0, []⟩),
    .arrive .stop, .move 0 .begin, .move 1 .fetchAdd, .move 1 .store,
    .move 2 .stop, .move 0 .check, .move 0 .finish, .move 2 .join,
    .move 2 .flushRest, .move 2 .load, .move 2 .advance, .move 2 .take,
    .move 2 .load]

/-- The line's run is in time. -/
theorem reach_lastLine :
    ∃ sys : Sys (Shared InlineEntry) (Thread InlineEntry),
      (program fun _ => bytes "12:00").Reach InTime (started [[]]) sys
      ∧ .stopper (.returned 1) ∈ sys.threads
      ∧ .worker .returned ∈ sys.threads
      ∧ sys.shared.logger.sinks = [bytes "[12:00] INFO [server] bye\n"] := by
  have hends : (((program fun _ => bytes "12:00").run lastLine
      ⟨started [[]], []⟩).map
        fun (sys : Sys (Shared InlineEntry) (Thread InlineEntry)) =>
          (sys.threads.drop 2, sys.threads.head?, sys.shared.logger.sinks))
      = some ([.stopper (.returned 1)], some (.worker .returned),
        [bytes "[12:00] INFO [server] bye\n"]) := by
    decide
  obtain ⟨sys, hrun, hparts⟩ := Option.map_eq_some_iff.mp hends
  simp only [Prod.mk.injEq] at hparts
  refine ⟨sys, Program.Reach.start.along hrun (by decide), ?_, ?_,
    hparts.2.2⟩
  · exact List.mem_of_mem_drop (hparts.1 ▸ List.mem_singleton.mpr rfl)
  · exact List.mem_of_mem_head? (Option.mem_def.mpr hparts.2.1)

/-- The line's run is serial, and has one consumer. -/
theorem one_consumer_lastLine :
    ∃ sys : Sys (Shared InlineEntry) (Thread InlineEntry),
      (program fun _ => bytes "12:00").run (lastLine.take 13)
          ⟨started [[]], []⟩ = some sys
        ∧ .stopper (.draining 1) ∈ sys.threads
        ∧ sys.threads.countP isAlive = 0
        ∧ sys.threads.countP isPopping = 1 := by
  have hmeets : (program fun _ => bytes "12:00").meets serial
      (lastLine.take 13) ⟨started [[]], []⟩ = true := by decide
  have hends : (((program fun _ => bytes "12:00").run (lastLine.take 13)
      ⟨started [[]], []⟩).map
        fun (sys : Sys (Shared InlineEntry) (Thread InlineEntry)) =>
          (sys.threads.drop 2, sys.shared.consumer))
      = some ([.stopper (.draining 1)], .advanced 0 0) := by
    decide
  obtain ⟨sys, hrun, hparts⟩ := Option.map_eq_some_iff.mp hends
  obtain ⟨hthreads, hconsumer⟩ := Prod.mk.inj hparts
  have hdraining : .stopper (.draining 1) ∈ sys.threads :=
    List.mem_of_mem_drop (hthreads ▸ List.mem_singleton.mpr rfl)
  obtain ⟨halive, -, hplace⟩ :=
    one_consumer (Program.Reach.start.along hrun hmeets)
  refine ⟨sys, hrun, hdraining, halive _ hdraining rfl, hplace ?_⟩
  rw [hconsumer]
  exact nofun

end LogStop

end CgiWebServer
