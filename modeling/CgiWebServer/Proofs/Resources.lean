/-
What a request leaves behind: descriptors that stay open, and children
nobody waits for.

# The same handlers

On the transaction the handlers beside the ledger are those of `Handlers`
and `Pipeline` (`erases_work`), so that what is known of these holds of
them.

# The ledger

A file that was opened is given back, except where its length is not
positive: `HeadHandler` throws in front of its `close`, and the
destructor of a `FileStreamer` whose constructor throws does not run.
`~ScriptStreamer` closes what its arrays hold, which is nothing of anyone
else's unless a `pipe` has failed, and a child is waited for at the end
of its output only. So the ledger is as before exactly where none of this
happens (`nothing_lost_iff`).
-/
import Mathlib.Data.Finset.Card
import Mathlib.Data.Finset.Range
import CgiWebServer.Proofs.HandlerLines
import CgiWebServer.Proofs.HeadGet
import CgiWebServer.Proofs.LoginToken
import CgiWebServer.Resources

namespace CgiWebServer

namespace Resources

open Process Proc

-- ================================================================= closing

namespace Ledger

@[simp] theorem close_descriptors (l : Ledger) (n : Int) :
    (l.close n).descriptors = l.descriptors.erase n := rfl

@[simp] theorem close_children (l : Ledger) (n : Int) :
    (l.close n).children = l.children := rfl

@[simp] theorem fork_descriptors (l : Ledger) (k : Kernel) :
    (l.fork k).2.descriptors = l.descriptors := rfl

@[simp] theorem wait_descriptors (l : Ledger) (pid : Int) :
    (l.wait pid).descriptors = l.descriptors := rfl

theorem mem_closeAll {n : Int} : ∀ {ns : List Int} {l : Ledger},
    n ∈ (l.closeAll ns).descriptors ↔ n ∈ l.descriptors ∧ n ∉ ns := by
  intro ns
  induction ns with
  | nil => simp [closeAll]
  | cons m ns ih =>
      intro l
      show n ∈ ((l.close m).closeAll ns).descriptors ↔ _
      rw [ih, close_descriptors, Finset.mem_erase, List.mem_cons, not_or]
      tauto

@[simp] theorem closeAll_children : ∀ (ns : List Int) (l : Ledger),
    (l.closeAll ns).children = l.children := by
  intro ns
  induction ns with
  | nil => exact fun _ => rfl
  | cons m ns ih => exact fun l => ih (l.close m)

/-- Two ledgers are the same if they hold the same. -/
theorem eq_of_mem {l l' : Ledger}
    (hdescriptors : ∀ n, n ∈ l.descriptors ↔ n ∈ l'.descriptors)
    (hchildren : l.children = l'.children) : l = l' := by
  obtain ⟨ds, cs⟩ := l
  obtain ⟨ds', cs'⟩ := l'
  obtain rfl : ds = ds' := Finset.ext hdescriptors
  obtain rfl : cs = cs' := hchildren
  rfl

end Ledger

/-- Numbers that were handed out, from one ledger to another. -/
structure Made (l : Ledger) (ns : List Int) (l' : Ledger) : Prop where
  mem : ∀ n, n ∈ l'.descriptors ↔ n ∈ l.descriptors ∨ n ∈ ns
  fresh : ∀ n ∈ ns, n ∉ l.descriptors
  children : l'.children = l.children

section Made

variable {kernel : Kernel} {l l' l'' : Ledger} {ns ms : List Int}

theorem made_nil (l : Ledger) : Made l [] l :=
  ⟨fun _ => by simp, fun _ hn => absurd hn List.not_mem_nil, rfl⟩

theorem made_take (kernel : Kernel) (l : Ledger) :
    Made l [(l.take kernel).1] (l.take kernel).2 := by
  refine ⟨fun n => ?_, fun n hn => ?_, rfl⟩
  · rw [Ledger.take, Finset.mem_insert, List.mem_singleton]
    exact or_comm
  · rw [List.mem_singleton.mp hn]
    exact kernel.descriptor_free l.descriptors

theorem Made.trans (h : Made l ns l') (h' : Made l' ms l'') :
    Made l (ns ++ ms) l'' := by
  refine ⟨fun n => ?_, fun n hn => ?_, h'.children.trans h.children⟩
  · rw [h'.mem, h.mem, List.mem_append, or_assoc]
  · rcases List.mem_append.mp hn with hin | hin
    · exact h.fresh n hin
    · exact fun hold => h'.fresh n hin ((h.mem n).mpr (Or.inl hold))

/-- Closing what was handed out, and more, leaves what there was exactly
if nothing of that is closed. -/
theorem Made.closeAll_iff (h : Made l ns l') {ms : List Int}
    (hsub : ns ⊆ ms) :
    l'.closeAll ms = l ↔ ∀ n ∈ ms, n ∉ l.descriptors := by
  have hmem : ∀ n, n ∈ (l'.closeAll ms).descriptors
      ↔ n ∈ l.descriptors ∧ n ∉ ms := by
    intro n
    rw [Ledger.mem_closeAll, h.mem]
    have hin : n ∈ ns → n ∈ ms := fun hn => hsub hn
    tauto
  constructor
  · intro heq n hn hold
    have hkept := (hmem n).mp (heq ▸ hold)
    exact hkept.2 hn
  · intro hnone
    refine Ledger.eq_of_mem (fun n => ?_) ?_
    · rw [hmem]
      exact ⟨And.left, fun hold => ⟨hold, fun hn => hnone n hn hold⟩⟩
    · rw [Ledger.closeAll_children, h.children]

theorem close_take (kernel : Kernel) (l : Ledger) :
    (l.take kernel).2.close (l.take kernel).1 = l := by
  have hclosed := (made_take kernel l).closeAll_iff (List.Subset.refl _)
  exact hclosed.mpr (made_take kernel l).fresh

theorem take_ne (kernel : Kernel) (l : Ledger) : (l.take kernel).2 ≠ l := by
  intro h
  have hin : (l.take kernel).1 ∈ (l.take kernel).2.descriptors :=
    Finset.mem_insert_self _ _
  rw [h] at hin
  exact kernel.descriptor_free _ hin

end Made

-- =================================================================== files

/-- What `open` does to the ledger. -/
def openedLedger (kernel : Kernel) (file : File) (l : Ledger) :
    Int × Ledger :=
  if file.opens then l.take kernel else (-1, l)

section Files

variable {env : Env} (kernel : Kernel) (event : Bytes → Event)
  {path : Bytes} {s : Txn} {l : Ledger} {e : Exn} {fileLen : Nat}
  (rest : File → Nat → Act Unit)

/-- The constructor, up to the check of what it has opened. -/
theorem openFileStreamer_apply (s : Txn) (l : Ledger) :
    openFileStreamer env kernel event path (s, l)
      = (beside (lift (openFile path (env.file s.time (cStr path))))
          >>= fun fileLen => pure
            ((openedLedger kernel (env.file s.time (cStr path)) l).1,
              env.file s.time (cStr path), fileLen))
        (emit (event (cStr path)) s,
          (openedLedger kernel (env.file s.time (cStr path)) l).2) := rfl

theorem withFileStreamer_of_error
    (h : openFile path (env.file s.time (cStr path)) = .error e) :
    withFileStreamer env kernel event path rest (s, l)
      = (.error (.raised e), emit (event (cStr path)) s,
          (openedLedger kernel (env.file s.time (cStr path)) l).2) := by
  apply bind_of_error
  rw [openFileStreamer_apply, h]
  rfl

theorem withFileStreamer_of_ok
    (h : openFile path (env.file s.time (cStr path)) = .ok fileLen) :
    withFileStreamer env kernel event path rest (s, l)
      = withCleanup leaves
          (·.close (openedLedger kernel (env.file s.time (cStr path)) l).1)
          (beside (rest (env.file s.time (cStr path)) fileLen))
          (emit (event (cStr path)) s,
            (openedLedger kernel (env.file s.time (cStr path)) l).2) := by
  have hopened : openFileStreamer env kernel event path (s, l)
      = (.ok ((openedLedger kernel (env.file s.time (cStr path)) l).1,
          env.file s.time (cStr path), fileLen),
        emit (event (cStr path)) s,
        (openedLedger kernel (env.file s.time (cStr path)) l).2) := by
    rw [openFileStreamer_apply, h]
    rfl
  exact bind_of_ok hopened

/-- In the transaction it is the streamer of `Transaction`. -/
theorem erases_withFileStreamer :
    Erases (withFileStreamer env kernel event path rest)
      (CgiWebServer.openFileStreamer env event path >>= fun found =>
        rest found.1 found.2) := by
  intro s l
  have hact := CgiWebServer.openFileStreamer_apply env event path s
  cases hopen : openFile path (env.file s.time (cStr path)) with
  | error e =>
      rw [hopen] at hact
      rw [withFileStreamer_of_error kernel event rest hopen,
        bind_of_error hact]
      exact ⟨rfl, rfl⟩
  | ok fileLen =>
      rw [hopen] at hact
      rw [withFileStreamer_of_ok kernel event rest hopen, bind_of_ok hact]
      exact erases_withCleanup (erases_beside _) _ _

/-- A file that is opened has something in it. -/
def Sound (file : File) : Prop := file.opens = true → 0 < file.fileLen

/-- A run is over: it has returned or thrown. -/
def Ended {α : Type} (r : Except Stop α) : Prop :=
  ∀ stop, r = .error stop → leaves stop = true

/-- The two ends of `openFile`. -/
theorem openFile_cases (path : Bytes) (file : File) :
    (openFile path file = .ok file.fileLen.toNat ∧ file.opens = true
        ∧ 0 < file.fileLen)
      ∨ ∃ e, openFile path file = .error e
        ∧ (file.opens = false ∨ file.opens = true ∧ file.fileLen ≤ 0) := by
  unfold openFile
  cases hopens : file.opens with
  | false => exact Or.inr ⟨_, if_pos rfl, Or.inl rfl⟩
  | true =>
      rw [if_neg (by decide)]
      by_cases hlen : file.fileLen ≤ 0
      · exact Or.inr ⟨_, if_pos hlen, Or.inr ⟨rfl, hlen⟩⟩
      · exact Or.inl ⟨if_neg hlen, rfl, not_le.mp hlen⟩

/-- The file of a streamer is given back exactly if it was not opened or
has something in it. -/
theorem withFileStreamer_ledger
    (hended : Ended (withFileStreamer env kernel event path rest (s, l)).1) :
    (withFileStreamer env kernel event path rest (s, l)).2.2 = l
      ↔ Sound (env.file s.time (cStr path)) := by
  rcases openFile_cases path (env.file s.time (cStr path)) with
    ⟨hopen, hopens, hlen⟩ | ⟨e, hopen, hfails⟩
  · refine iff_of_true ?_ fun _ => hlen
    rw [withFileStreamer_of_ok kernel event rest hopen] at hended ⊢
    rw [withCleanup_fst] at hended
    rw [withCleanup_snd _ hended, openedLedger, if_pos hopens]
    exact close_take kernel l
  · rw [withFileStreamer_of_error kernel event rest hopen, openedLedger]
    rcases hfails with hnot | ⟨hopens, hlen⟩
    · refine iff_of_true ?_ fun hopens => ?_
      · rw [hnot]
        rfl
      · rw [hnot] at hopens
        cases hopens
    · refine iff_of_false ?_ fun hsound => ?_
      · rw [if_pos hopens]
        exact take_ne kernel l
      · exact absurd (hsound hopens) (not_lt.mpr hlen)

end Files

-- ================================================================= scripts

/-- The numbers `~ScriptStreamer` closes that no `pipe` has handed out. -/
def ScriptCalls.strays (calls : ScriptCalls) (fails : Option SpawnStep) :
    List Int :=
  if fails = some .pipes then
    if calls.stdinMade then [calls.memory.stdout0, calls.memory.stdout1]
    else calls.memory.all
  else []

section Pipes

variable (env : Env) (kernel : Kernel) (calls : ScriptCalls)

theorem made_pipe (kernel : Kernel) (l : Ledger) :
    Made l [(l.take kernel).1, ((l.take kernel).2.take kernel).1]
      ((l.take kernel).2.take kernel).2 :=
  (made_take kernel l).trans (made_take kernel _)

/-- What the arrays hold behind the `pipe`s: what was handed out, and the
strays. -/
theorem makePipes_spec (s : Txn) (l : Ledger) :
    ∃ p ns l', makePipes env kernel calls (s, l) = (.ok p, s, l')
      ∧ Made l ns l' ∧ p.all = ns ++ calls.strays env.script.fails := by
  have hall : env.script.fails ≠ some .pipes →
      ∃ p ns l', makePipes env kernel calls (s, l) = (.ok p, s, l')
        ∧ Made l ns l' ∧ p.all = ns ++ calls.strays env.script.fails := by
    intro hfails
    have hstrays : calls.strays env.script.fails = [] := if_neg hfails
    let second := ((l.take kernel).2.take kernel).2
    refine ⟨⟨(l.take kernel).1, ((l.take kernel).2.take kernel).1,
      (second.take kernel).1, ((second.take kernel).2.take kernel).1⟩, _, _,
      ?_, (made_pipe kernel l).trans (made_pipe kernel second), ?_⟩
    · unfold makePipes
      cases hvalue : env.script.fails with
      | none => rfl
      | some step =>
          cases step with
          | pipes => exact absurd hvalue hfails
          | addDup2 => rfl
          | addClose => rfl
          | spawn => rfl
          | write => rfl
    · rw [hstrays]
      rfl
  -- Where pipe fails, the numbers not handed out are whatever the memory
  -- held.
  by_cases hfails : env.script.fails = some .pipes
  · have hstrays : calls.strays env.script.fails
        = if calls.stdinMade then
            [calls.memory.stdout0, calls.memory.stdout1]
          else calls.memory.all := if_pos hfails
    unfold makePipes
    rw [hstrays, hfails]
    dsimp only
    cases calls.stdinMade with
    | false => exact ⟨calls.memory, [], l, rfl, made_nil l, rfl⟩
    | true => exact ⟨_, _, _, rfl, made_pipe kernel l, rfl⟩
  · exact hall hfails

end Pipes

section Scripts

variable {env : Env} {kernel : Kernel} {calls : ScriptCalls}
  {script args : Bytes} {p : Descriptors.Pipes} {s : Txn} {l : Ledger}

/-- The ledger behind `spawn`. -/
def spawnedLedger (kernel : Kernel) (p : Descriptors.Pipes) (l : Ledger) :
    Ledger :=
  (((l.fork kernel).2.close p.stdin0).close p.stdout1).close p.stdin1

/-- The exception of a step that fails. -/
def spawnFailed (script : Bytes) (step : SpawnStep) : Exn :=
  .http (.mk' .internalServerError (step.message script) ∅)

section Spawn

variable (kernel script args p s l)

/-- A spawn that fails with no child made. -/
theorem spawn_of_no_child {step : SpawnStep}
    (h : env.script.fails = some step) (hstep : step ≠ .write) :
    spawn env kernel script args p (s, l)
      = (.error (.raised (spawnFailed script step)), s, l) := by
  unfold spawn
  rw [h]
  cases step with
  | write => exact absurd rfl hstep
  | pipes => rfl
  | addDup2 => rfl
  | addClose => rfl
  | spawn => rfl

/-- A child that cannot be written to. -/
theorem spawn_of_write (h : env.script.fails = some .write) :
    spawn env kernel script args p (s, l)
      = (.error (.raised (spawnFailed script .write)),
          emit (.spawned (cStr script) args) s,
          ((l.fork kernel).2.close p.stdin0).close p.stdout1) := by
  unfold spawn
  rw [h]
  rfl

theorem spawn_of_none (h : env.script.fails = none) :
    spawn env kernel script args p (s, l)
      = (.ok (l.fork kernel).1, emit (.spawned (cStr script) args) s,
          spawnedLedger kernel p l) := by
  unfold spawn
  rw [h]
  rfl

end Spawn

/-- The chunks of a script are relayed up to the end of its output: no
read fails, and the callback throws for none. -/
def RelaysAll (env : Env) : List ScriptRead → Txn → Prop
  | .eof :: _, _ => True
  | .chunk data :: rest, s =>
      (relayChunk env true data s).1 = .ok ()
        ∧ RelaysAll env rest (relayChunk env true data s).2
  | _, _ => False

/-- That is when the loop returns. -/
theorem relayLoop_ok_iff (script : Bytes) : ∀ {reads : List ScriptRead} {s : Txn},
    (relayLoop env script reads s).1 = .ok () ↔ RelaysAll env reads s := by
  intro reads
  induction reads with
  | nil => exact fun {s} => iff_of_false (fun h => by cases h) id
  | cons read rest ih =>
      intro s
      cases read with
      | eof => exact iff_of_true rfl True.intro
      | error => exact iff_of_false (fun h => by cases h) id
      | chunk data =>
          rw [RelaysAll, relayLoop, scriptLoop_chunk]
          cases hrun : relayChunk env true data s with
          | mk r s' =>
              cases r with
              | ok u =>
                  rw [Proc.bind_of_ok hrun]
                  exact ⟨fun h => ⟨rfl, ih.mp h⟩, fun h => ih.mpr h.2⟩
              | error stop =>
                  rw [Proc.bind_of_error hrun]
                  exact iff_of_false (fun h => by cases h)
                    fun h => by cases h.1

/-- What leaves nothing behind: no stray number is anyone's, and a child
that was made is read to its end. -/
def ScriptSound (env : Env) (calls : ScriptCalls) (l : Ledger)
    (s : Txn) : Prop :=
  match env.script.fails with
  | none => calls.attaches = true ∧ RelaysAll env env.script.reads s
  | some .write => False
  | some _ =>
      ∀ n ∈ calls.strays env.script.fails, n ∉ l.descriptors

/-- The run of a script, behind its pipes. -/
abbrev relayStream (env : Env) (kernel : Kernel) (calls : ScriptCalls)
    (script args : Bytes) (p : Descriptors.Pipes) : Sys Unit :=
  stream env kernel calls script args (some (relayChunk env true)) p

/-- Only numbers in the arrays have been closed. -/
def ClosesOwn (p : Descriptors.Pipes) (l l' : Ledger) : Prop :=
  ∀ n, n ∉ p.all → (n ∈ l'.descriptors ↔ n ∈ l.descriptors)

/-- The destructor: what there was before the pipes is there again
exactly if no stray number was in it and no child is left. -/
theorem destructor_iff {ns strays : List Int} {l₁ l₂ : Ledger}
    (hmade : Made l ns l₁) (hall : p.all = ns ++ strays)
    (hcloses : ClosesOwn p l₁ l₂) :
    l₂.closeAll p.all = l
      ↔ (∀ n ∈ strays, n ∉ l.descriptors) ∧ l₂.children = l.children := by
  -- The calls in between close only what is their own, so closing
  -- everything comes to the same on both ledgers.
  have hmem : ∀ n, n ∈ (l₂.closeAll p.all).descriptors
      ↔ n ∈ (l₁.closeAll p.all).descriptors := by
    intro n
    rw [Ledger.mem_closeAll, Ledger.mem_closeAll]
    exact and_congr_left fun hn => hcloses n hn
  have hstrays : (∀ n ∈ strays, n ∉ l.descriptors)
      ↔ ∀ n ∈ p.all, n ∉ l.descriptors := by
    rw [hall]
    refine ⟨fun h n hn => ?_, fun h n hn =>
      h n (List.mem_append_right _ hn)⟩
    rcases List.mem_append.mp hn with hin | hin
    · exact hmade.fresh n hin
    · exact h n hin
  have hsub : ns ⊆ p.all := hall ▸ List.subset_append_left _ _
  have hmadeAll := hmade.closeAll_iff hsub
  constructor
  · intro h
    have hchildren : l₂.children = l.children := by
      rw [← Ledger.closeAll_children p.all l₂, h]
    refine ⟨hstrays.mpr (hmadeAll.mp ?_), hchildren⟩
    rw [← h]
    refine Ledger.eq_of_mem (fun n => (hmem n).symm) ?_
    rw [Ledger.closeAll_children, Ledger.closeAll_children, hmade.children,
      hchildren]
  · intro h
    have hback := hmadeAll.mpr (hstrays.mp h.1)
    refine Ledger.eq_of_mem (fun n => ?_) ?_
    · rw [hmem, hback]
    · rw [Ledger.closeAll_children, h.2]

/-- A child that nobody has waited for is a difference. -/
theorem fork_children_ne (kernel : Kernel) (l : Ledger) :
    (l.fork kernel).2.children ≠ l.children := by
  intro h
  have hin : (l.fork kernel).1 ∈ (l.fork kernel).2.children :=
    Finset.mem_insert_self _ _
  rw [h] at hin
  exact kernel.pid_free _ hin

/-- One that somebody has waited for is not. -/
theorem wait_fork_children (kernel : Kernel) (l : Ledger) :
    (l.fork kernel).2.children.erase (l.fork kernel).1 = l.children :=
  Finset.erase_insert (kernel.pid_free l.children)

theorem ClosesOwn.close {l' : Ledger} (h : ClosesOwn p l l') {m : Int}
    (hm : m ∈ p.all) : ClosesOwn p l (l'.close m) := by
  intro n hn
  have hne : n ≠ m := fun heq => hn (heq ▸ hm)
  rw [Ledger.close_descriptors, Finset.mem_erase, h n hn]
  exact and_iff_right hne

theorem closesOwn_spawned (kernel : Kernel) (p : Descriptors.Pipes)
    (l : Ledger) : ClosesOwn p l (spawnedLedger kernel p l) := by
  intro n hn
  simp only [Descriptors.Pipes.all, List.mem_cons, List.not_mem_nil, or_false,
    not_or] at hn
  simp [spawnedLedger, hn]

/-- With a child that was made, the stream has waited for it exactly if
it has come to the end of the output. -/
theorem stream_of_child (hnone : env.script.fails = none)
    (hended : Ended
      (relayStream env kernel calls script args p (s, l)).1) :
    ClosesOwn p l (relayStream env kernel calls script args p (s, l)).2.2
      ∧ ((relayStream env kernel calls script args p (s, l)).2.2.children
          = l.children
        ↔ calls.attaches = true ∧ RelaysAll env env.script.reads
          (emit (.spawned (cStr script) args) s)) := by
  have hspawned := closesOwn_spawned kernel p l
  have hrun : relayStream env kernel calls script args p (s, l)
      = (if !calls.attaches then beside (throwExn notAttached)
        else
          withCleanup leaves (·.close p.stdout0) (
            beside (relayLoop env script env.script.reads) >>= fun _ =>
              aside fun l' => ((), l'.wait (l.fork kernel).1)))
          (emit (.spawned (cStr script) args) s,
            spawnedLedger kernel p l) :=
    bind_of_ok (spawn_of_none kernel script args p s l hnone)
  rw [hrun] at hended ⊢
  cases hattaches : calls.attaches with
  -- Without a stream for the output nobody waits for the child.
  | false =>
      refine ⟨hspawned, iff_of_false ?_ fun h => by cases h.1⟩
      exact fork_children_ne kernel l
  | true =>
      simp only [hattaches, Bool.not_true, Bool.false_eq_true, if_false]
        at hended ⊢
      rw [withCleanup_fst] at hended
      rw [withCleanup_snd _ hended, true_and,
        ← relayLoop_ok_iff script]
      -- The child is waited for only behind a loop that returned.
      cases hloop : relayLoop env script env.script.reads
          (emit (.spawned (cStr script) args) s) with
      | mk r s' =>
          have hbeside := beside_of_run hloop (spawnedLedger kernel p l)
          have hlast : p.stdout0 ∈ p.all := by simp [Descriptors.Pipes.all]
          cases r with
          | ok u =>
              rw [bind_of_ok hbeside]
              refine ⟨?_, iff_of_true ?_ rfl⟩
              · have hwaited : ClosesOwn p l
                    ((spawnedLedger kernel p l).wait (l.fork kernel).1) :=
                  hspawned
                exact hwaited.close hlast
              · exact wait_fork_children kernel l
          | error stop =>
              rw [bind_of_error hbeside]
              refine ⟨hspawned.close hlast, iff_of_false ?_ fun h => ?_⟩
              · exact fork_children_ne kernel l
              · cases h

/-- A run of a script, with its streamer's scope. -/
theorem streamScript_ledger
    (hended : Ended (streamScript env kernel calls script args
      (some (relayChunk env true)) (s, l)).1) :
    (streamScript env kernel calls script args
        (some (relayChunk env true)) (s, l)).2.2 = l
      ↔ ScriptSound env calls l (emit (.spawned (cStr script) args) s) := by
  obtain ⟨p, ns, l₁, hpipes, hmade, hall⟩ :=
    makePipes_spec env kernel calls s l
  have hrun : streamScript env kernel calls script args
      (some (relayChunk env true)) (s, l)
      = withCleanup leaves (·.closeAll p.all)
          (relayStream env kernel calls script args p) (s, l₁) :=
    bind_of_ok hpipes
  rw [hrun] at hended ⊢
  rw [withCleanup_fst] at hended
  rw [withCleanup_snd _ hended]
  dsimp only
  unfold ScriptSound
  cases hfails : env.script.fails with
  | none =>
      obtain ⟨hcloses, hchild⟩ := stream_of_child hfails hended
      rw [destructor_iff hmade hall hcloses, ← hmade.children, hchild, hfails]
      exact and_iff_right fun n hn => absurd hn List.not_mem_nil
  | some step =>
      -- A failed write leaves a child; every other failure comes before
      -- there is one.
      by_cases hstep : step = .write
      · subst hstep
        have hspawn := spawn_of_write kernel script args p s l₁ hfails
        rw [show relayStream env kernel calls script args p (s, l₁) = _ from
          bind_of_error hspawn]
        refine iff_of_false (fun h => ?_) id
        have hchildren := congrArg Ledger.children h
        rw [Ledger.closeAll_children] at hchildren
        exact fork_children_ne kernel l₁
          (hchildren.trans hmade.children.symm)
      · have hspawn := spawn_of_no_child kernel script args p s l₁ hfails hstep
        rw [show relayStream env kernel calls script args p (s, l₁) = _ from
          bind_of_error hspawn, destructor_iff hmade hall fun _ _ => Iff.rfl,
          hfails]
        cases step with
        | write => exact absurd rfl hstep
        | pipes => exact and_iff_left hmade.children
        | addDup2 => exact and_iff_left hmade.children
        | addClose => exact and_iff_left hmade.children
        | spawn => exact and_iff_left hmade.children

end Scripts

-- ================================================================ handlers

section Handlers

variable (env : Env) (kernel : Kernel) (calls : ScriptCalls) {s : Txn}
  {l : Ledger} {entry : EndpointMethod}

theorem getHandler_routed (h : Routed s.request s.router entry) :
    GetHandler.handle env kernel calls (s, l)
      = if entry.hasScript then
          streamScript env kernel calls entry.resource s.request.args
            (some (relayChunk env true)) (s, l)
        else GetHandler.handleFile env kernel entry (s, l) := by
  obtain ⟨ep, hep, hentry⟩ := h.endpoint_entry
  have hresource : ep.getResource s.request.method = .ok entry.resource := by
    rw [Endpoint.getResource, Endpoint.field, hentry]
  have hscript : GetHandler.handleScript env kernel calls (s, l)
      = streamScript env kernel calls entry.resource s.request.args
          (some (relayChunk env true)) (s, l) := by
    unfold GetHandler.handleScript
    simp only [bind_apply, beside_apply, Proc.get_apply, h.endpoint,
      Option.bind_some, hep, derefPtr, Proc.pure_apply, hresource, lift,
      Proc.ofExcept_ok]
  rw [← hscript]
  unfold GetHandler.handle
  simp only [bind_apply, beside_apply, Proc.get_apply, h.endpoint, h.route,
    h.entry, derefPtr, Proc.pure_apply]
  cases entry.hasScript with
  | false => rfl
  | true => rfl

theorem postHandler_routed (h : Routed s.request s.router entry) :
    PostHandler.handle env kernel calls (s, l)
      = if entry.hasScript then
          streamScript env kernel calls entry.resource s.request.args
            (some (relayChunk env true)) (s, l)
        else (.error (.raised (noRoute "POST" s.request.endpointUrl)), s, l)
    := by
  unfold PostHandler.handle
  simp only [bind_apply, beside_apply, Proc.get_apply, h.endpoint, h.route,
    h.entry, derefPtr, Proc.pure_apply]
  cases entry.hasScript with
  | false => rfl
  | true => rfl

theorem headHandler_routed (h : Routed s.request s.router entry) :
    HeadHandler.handle env kernel (s, l)
      = if entry.hasScript then
          (.error (.raised (noRoute "GET" s.request.endpointUrl)), s, l)
        else
          (HeadHandler.buildResponse env kernel entry >>= fun _ =>
            beside (streamHead env)) (s, l) := by
  unfold HeadHandler.handle
  simp only [bind_apply, beside_apply, Proc.get_apply, h.endpoint, h.route,
    h.entry, derefPtr, Proc.pure_apply]
  cases entry.hasScript with
  | false => rfl
  | true => rfl

/-- HEAD gives its file back exactly if it was not opened or has something
in it. -/
theorem buildResponse_ledger :
    ((HeadHandler.buildResponse env kernel entry >>= fun _ =>
        beside (streamHead env)) (s, l)).2.2 = l
      ↔ Sound (env.file s.time (cStr entry.resource)) := by
  rw [bind_beside_snd]
  have hrun : HeadHandler.buildResponse env kernel entry (s, l)
      = (if (env.file s.time (cStr entry.resource)).opens = false
            ∨ (env.file s.time (cStr entry.resource)).fileLen ≤ 0 then
          beside (throwExn (CgiWebServer.HeadHandler.notOpened entry.resource
            s.request.endpointUrl))
        else
          close (openedLedger kernel
              (env.file s.time (cStr entry.resource)) l).1 >>= fun _ =>
            beside (HeadHandler.setHeaders s entry.resource
              (env.file s.time (cStr entry.resource))))
          (emit (.opened (cStr entry.resource)) s,
            (openedLedger kernel
              (env.file s.time (cStr entry.resource)) l).2) := rfl
  rw [hrun]
  generalize env.file s.time (cStr entry.resource) = file
  unfold Sound openedLedger
  cases hopens : file.opens with
  | false =>
      rw [if_pos (Or.inl rfl)]
      exact iff_of_true rfl fun h => by cases h
  | true =>
      -- An opened file of no length throws before its close.
      by_cases hlen : file.fileLen ≤ 0
      · rw [if_pos (Or.inr hlen)]
        exact iff_of_false (take_ne kernel l)
          fun h => absurd (h rfl) (not_lt.mpr hlen)
      · rw [if_neg (by simp [hlen]), bind_beside_snd]
        exact iff_of_true (close_take kernel l) fun _ => not_le.mp hlen

/-- What GET does with a streamer it has constructed. -/
def streamRest (path : Bytes) (opened : File) (fileLen : Nat) : Act Unit := do
  modifyResponse (·.addHeader (bytes "Content-Type") (toStr fileLen))
  streamFile env path opened fileLen

theorem handleFile_of_noType (h : determineContentType entry.resource = none) :
    (GetHandler.handleFile env kernel entry (s, l)).2.2 = l := by
  unfold GetHandler.handleFile
  simp only [bind_apply, beside_apply, Proc.get_apply, h]

theorem handleFile_of_type {c : Bytes}
    (h : determineContentType entry.resource = some c) :
    GetHandler.handleFile env kernel entry (s, l)
      = (beside (streamHead env) >>= fun _ =>
          withFileStreamer env kernel .opened entry.resource
            (streamRest env entry.resource))
          (withResponse (fileResponse c s.response) s, l) := by
  unfold GetHandler.handleFile
  simp only [bind_apply, beside_apply, Proc.get_apply, h]
  rfl

/-- GET does once its head is out. -/
theorem handleFile_ledger
    (hended : Ended (GetHandler.handleFile env kernel entry (s, l)).1) :
    (GetHandler.handleFile env kernel entry (s, l)).2.2 = l
      ↔ ∀ c, determineContentType entry.resource = some c →
          Written env (fileResponse c s.response) s.time →
          Sound (env.file (s.time + 1) (cStr entry.resource)) := by
  cases htype : determineContentType entry.resource with
  | none =>
      exact iff_of_true (handleFile_of_noType env kernel htype)
        fun c h => by cases h
  | some c =>
      have hhead := beside_of_run
        (streamHead_withResponse env (fileResponse c s.response) s) l
      rw [handleFile_of_type env kernel htype] at hended ⊢
      cases hend : writeEndOf
          (writeAt env (fileResponse c s.response) s.time).result with
      | error stop =>
          rw [hend] at hhead
          rw [bind_of_error hhead]
          refine iff_of_true rfl fun c' h hwritten => ?_
          cases h
          exact absurd (hend.symm.trans hwritten) (by simp)
      | ok u =>
          rw [hend] at hhead
          rw [bind_of_ok hhead] at hended ⊢
          rw [withFileStreamer_ledger kernel .opened _ hended, time_afterHead]
          constructor
          · intro hsound c' h hwritten
            exact hsound
          · intro hsound
            exact hsound c rfl hend

/-- A configured error page does, whatever follows it. -/
theorem configuredErrorPage_ledger (file : Bytes)
    (hended : Ended (configuredErrorPage env kernel file (s, l)).1) :
    (configuredErrorPage env kernel file (s, l)).2.2 = l
      ↔ Sound (env.file s.time (cStr file)) := by
  have hserve : Ended (serveErrorPage env kernel file (s, l)).1
      ∧ (configuredErrorPage env kernel file (s, l)).2.2
        = (serveErrorPage env kernel file (s, l)).2.2 := by
    unfold configuredErrorPage Proc.recover at hended ⊢
    cases hrun : serveErrorPage env kernel file (s, l) with
    | mk r s' =>
        rw [hrun] at hended
        cases r with
        | ok u => exact ⟨hended, rfl⟩
        | error stop =>
            cases stop with
            | raised e =>
                refine ⟨fun stop h => ?_, rfl⟩
                cases h
                rfl
            | pending => exact ⟨hended, rfl⟩
            | crash => exact ⟨hended, rfl⟩
  rw [hserve.2]
  exact withFileStreamer_ledger kernel .openedPage _ hserve.1

end Handlers

-- ============================================================ sound works

/-- What leaves nothing behind, work by work: no file is opened that has
nothing in it, and a script's run is sound. -/
def WorkSound (env : Env) (calls : ScriptCalls) (entry : EndpointMethod)
    (s : Txn) (l : Ledger) : Work → Prop
  | .handler .get =>
      if entry.hasScript then
        ScriptSound env calls l (spawnedTxn entry.resource s)
      else
        ∀ c, determineContentType entry.resource = some c →
          Written env (fileResponse c s.response) s.time →
          Sound (env.file (s.time + 1) (cStr entry.resource))
  | .handler .post =>
      entry.hasScript = true →
        ScriptSound env calls l (spawnedTxn entry.resource s)
  | .handler .head =>
      entry.hasScript = false →
        Sound (env.file s.time (cStr entry.resource))
  | .handler .options => True
  | .page none => True
  | .page (some file) => Sound (env.file s.time (cStr file))

/-- For every handler, on whatever route, and every error page, every
outcome of their calls and everything the process holds: once the run is
over, the open descriptors and the children not waited for are those of
before exactly if the work is sound. -/
theorem nothing_lost_iff (env : Env) (kernel : Kernel) (calls : ScriptCalls)
    {entry : EndpointMethod} {s : Txn} (l : Ledger) {w : Work}
    (hrouted : ∀ kind, w = .handler kind →
      Routed s.request s.router entry)
    (hended : Ended (w.run env kernel calls (s, l)).1) :
    (w.run env kernel calls (s, l)).2.2 = l
      ↔ WorkSound env calls entry s l w := by
  cases w with
  | handler kind =>
      have hroute := hrouted kind rfl
      -- A route's script or its file decides; OPTIONS and the default page
      -- open nothing.
      cases kind with
      | get =>
          rw [show Work.run env kernel calls (.handler .get) (s, l) = _ from
            getHandler_routed env kernel calls hroute] at hended ⊢
          unfold WorkSound
          split at hended
          next hscript =>
            rw [if_pos hscript, if_pos hscript]
            exact streamScript_ledger hended
          next hfile =>
            rw [if_neg hfile, if_neg hfile]
            exact handleFile_ledger env kernel hended
      | post =>
          rw [show Work.run env kernel calls (.handler .post) (s, l) = _ from
            postHandler_routed env kernel calls hroute] at hended ⊢
          unfold WorkSound
          split at hended
          next hscript =>
            rw [if_pos hscript, streamScript_ledger hended]
            exact ⟨fun h _ => h, fun h => h hscript⟩
          next hfile =>
            rw [if_neg hfile]
            exact iff_of_true rfl fun hscript => absurd hscript hfile
      | head =>
          rw [show Work.run env kernel calls (.handler .head) (s, l) = _ from
            headHandler_routed env kernel hroute]
          unfold WorkSound
          cases hscript : entry.hasScript with
          | true => exact iff_of_true rfl fun h => by cases h
          | false =>
              rw [if_neg (by decide), buildResponse_ledger]
              exact ⟨fun h _ => h, fun h => h rfl⟩
      | options => exact iff_of_true rfl True.intro
  | page file =>
      cases file with
      | none => exact iff_of_true rfl True.intro
      | some file => exact configuredErrorPage_ledger env kernel file hended

/-- As many numbers as are taken, and one more. -/
def candidates (s : Finset Int) : List Int :=
  (List.range (s.card + 1)).map Int.ofNat

/-- The lowest number that is free. -/
def lowestFree (s : Finset Int) : Int :=
  ((candidates s).find? (· ∉ s)).getD 0

theorem lowestFree_free (s : Finset Int) : lowestFree s ∉ s := by
  unfold lowestFree
  cases hfind : (candidates s).find? (· ∉ s) with
  | some n => simpa using List.find?_some hfind
  | none =>
      have hall : ∀ n ∈ Finset.range (s.card + 1), Int.ofNat n ∈ s := by
        intro n hn
        have hin : Int.ofNat n ∈ candidates s :=
          List.mem_map_of_mem (List.mem_range.mpr (Finset.mem_range.mp hn))
        simpa using List.find?_eq_none.mp hfind _ hin
      have hcard := Finset.card_le_card_of_injOn _ hall
        (fun a _ b _ h => Int.ofNat.inj h)
      rw [Finset.card_range] at hcard
      exact absurd hcard (Nat.not_succ_le_self _)

/-- Descriptors and children get the lowest number. -/
def ascending : Kernel where
  descriptor := lowestFree
  pid := lowestFree
  descriptor_free := lowestFree_free
  pid_free := lowestFree_free

/-- Arrays whose memory holds no number of a descriptor. -/
def cleanCalls : ScriptCalls := { memory := ⟨-1, -1, -1, -1⟩ }

/-- A request for the head of a stylesheet. -/
def headTxn : Txn := withMethod .head (atDefault (bytes "/app.css"))

def headEntry : EndpointMethod :=
  defaultEntry (bytes "/app.css") .head .head

theorem routed_headTxn :
    Routed headTxn.request headTxn.router headEntry :=
  routed_default atDefault_css (Or.inr ⟨rfl, rfl⟩)

/-- A machine on which every file has a length, with a client who takes
what is sent. -/
def lengthEnv (fileLen : Int) : Env where
  file := fun _ _ => { opens := true, fileLen := fileLen }
  socket := working

/-- The run of HEAD there, in a process that holds nothing. -/
def headOn (fileLen : Int) : Except Stop Unit × Txn × Ledger :=
  (Work.handler .head).run (lengthEnv fileLen) ascending cleanCalls
    (headTxn, {})

theorem ended_headOn_five : Ended (headOn 5).1 := by
  have hreturned : (headOn 5).1 = .ok () := by rfl
  intro stop h
  rw [hreturned] at h
  cases h

theorem ended_headOn_zero : Ended (headOn 0).1 := by
  intro stop h
  cases h
  rfl

/-- The head of a file of five bytes. -/
theorem nothing_lost_head :
    (∀ kind, Work.handler .head = .handler kind →
        Routed headTxn.request headTxn.router headEntry)
      ∧ Ended (headOn 5).1 ∧ (headOn 5).2.2 = {} :=
  ⟨fun _ _ => routed_headTxn, ended_headOn_five,
    (nothing_lost_iff (lengthEnv 5) ascending cleanCalls {}
      (fun _ _ => routed_headTxn) ended_headOn_five).mpr
      fun _ _ => by decide⟩

/-- A login whose script prints no response. -/
def garbageEnv : Env where
  script := { reads := [.chunk (bytes "oops"), .eof] }

def loginRequest : Txn where
  request :=
    { method := .post, endpointUrl := bytes "/login"
      endpoint := some (bytes "/login")
      route := some { endpoint := bytes "/login", method := .post } }
  router := loginServer.router

/-- The head of an empty file leaves it open, and a script that prints no
response is not waited for. -/
theorem empty_file_stays_open :
    (¬ ∀ (env : Env) (kernel : Kernel) (calls : ScriptCalls)
        (entry : EndpointMethod) (s : Txn) (l : Ledger) (w : Work),
        (∀ kind, w = .handler kind → Routed s.request s.router entry) →
        Ended (w.run env kernel calls (s, l)).1 →
        (w.run env kernel calls (s, l)).2.2 = l)
      ∧ (headOn 0).2.2 = { descriptors := {0} }
      ∧ ((Work.handler .post).run garbageEnv ascending cleanCalls
          (loginRequest, {})).2.2 = { children := {0} } := by
  have hempty : (headOn 0).2.2 = { descriptors := {0} } := rfl
  refine ⟨fun hclaim => ?_, hempty, ?_⟩
  · have hkept : (headOn 0).2.2 = {} :=
      hclaim (lengthEnv 0) ascending cleanCalls headEntry headTxn {}
        (.handler .head) (fun _ _ => routed_headTxn) ended_headOn_zero
    rw [hempty] at hkept
    exact absurd hkept (by decide)
  · rfl

-- ================================================================= erasure

section Erasure

variable {env : Env} {kernel : Kernel} {calls : ScriptCalls}

/-- `spawn`, with what is done with the child's number. -/
theorem erases_spawn_bind {script args : Bytes} {p : Descriptors.Pipes}
    {rest : Int → Sys Unit} {rest' : Act Unit}
    (h : ∀ pid, Erases (rest pid) rest') :
    Erases (spawn env kernel script args p >>= rest)
      (CgiWebServer.spawn env script args >>= fun _ => rest') := by
  intro s l
  cases hfails : env.script.fails with
  | none =>
      rw [bind_of_ok (spawn_of_none kernel script args p s l hfails),
        CgiWebServer.spawn_of_none env hfails]
      exact h _ _ _
  | some step =>
      by_cases hstep : step = .write
      · subst hstep
        rw [bind_of_error (spawn_of_write kernel script args p s l hfails)]
        unfold CgiWebServer.spawn
        rw [hfails]
        exact ⟨rfl, rfl⟩
      · rw [bind_of_error
          (spawn_of_no_child kernel script args p s l hfails hstep)]
        unfold CgiWebServer.spawn
        rw [hfails]
        cases step with
        | write => exact absurd rfl hstep
        | pipes => exact ⟨rfl, rfl⟩
        | addDup2 => exact ⟨rfl, rfl⟩
        | addClose => exact ⟨rfl, rfl⟩
        | spawn => exact ⟨rfl, rfl⟩

theorem erases_streamScript (hattaches : calls.attaches = true)
    (script args : Bytes) (callback : Option (Bytes → Act Unit)) :
    Erases (streamScript env kernel calls script args callback)
      (CgiWebServer.streamScript env script args callback) := by
  intro s l
  obtain ⟨p, ns, l₁, hpipes, -, -⟩ := makePipes_spec env kernel calls s l
  have hrun : streamScript env kernel calls script args callback (s, l)
      = withCleanup leaves (·.closeAll p.all)
          (stream env kernel calls script args callback p) (s, l₁) :=
    bind_of_ok hpipes
  rw [hrun]
  refine erases_withCleanup ?_ s l₁
  unfold stream
  refine erases_spawn_bind fun pid => ?_
  simp only [hattaches, Bool.not_true, Bool.false_eq_true, if_false]
  exact erases_withCleanup (erases_bind_aside _ (erases_beside _))

theorem erases_getHandler (hattaches : calls.attaches = true) :
    Erases (GetHandler.handle env kernel calls)
      (CgiWebServer.GetHandler.handle env) := by
  unfold GetHandler.handle CgiWebServer.GetHandler.handle
  refine erases_bind (erases_beside _) fun txn => ?_
  cases txn.request.endpoint with
  | none => exact erases_beside _
  | some ep =>
      cases txn.request.route with
      | none => exact erases_beside _
      | some route =>
          refine erases_bind (erases_beside _) fun route => ?_
          cases route.hasScript with
          | true =>
              refine erases_bind (erases_beside _) fun txn => ?_
              refine erases_bind (erases_beside _) fun endpoint => ?_
              refine erases_bind (erases_beside _) fun script => ?_
              exact erases_streamScript hattaches _ _ _
          | false =>
              refine erases_bind (erases_beside _) fun txn => ?_
              dsimp only
              cases determineContentType route.resource with
              | none => exact erases_beside _
              | some contentType =>
                  refine erases_bind (erases_beside _) fun _ => ?_
                  refine erases_bind (erases_beside _) fun _ => ?_
                  exact erases_withFileStreamer kernel _ _

theorem erases_postHandler (hattaches : calls.attaches = true) :
    Erases (PostHandler.handle env kernel calls)
      (CgiWebServer.PostHandler.handle env) := by
  unfold PostHandler.handle CgiWebServer.PostHandler.handle
  refine erases_bind (erases_beside _) fun txn => ?_
  cases txn.request.endpoint with
  | none => exact erases_beside _
  | some ep =>
      cases txn.request.route with
      | none => exact erases_beside _
      | some route =>
          refine erases_bind (erases_beside _) fun route => ?_
          cases route.hasScript with
          | true => exact erases_streamScript hattaches _ _ _
          | false => exact erases_beside _

theorem erases_buildResponse (route : EndpointMethod) :
    Erases (HeadHandler.buildResponse env kernel route)
      (CgiWebServer.HeadHandler.buildResponse env route) := by
  unfold HeadHandler.buildResponse CgiWebServer.HeadHandler.buildResponse
  refine erases_bind (erases_beside _) fun txn => ?_
  refine erases_bind (erases_beside _) fun _ => ?_
  refine erases_aside_bind fun filefd => ?_
  by_cases hfile : (env.file txn.time (cStr route.resource)).opens = false
      ∨ (env.file txn.time (cStr route.resource)).fileLen ≤ 0
  · rw [if_pos hfile, if_pos hfile]
    exact erases_beside _
  · rw [if_neg hfile, if_neg hfile]
    exact erases_aside_bind fun _ => erases_beside _

theorem erases_headHandler :
    Erases (HeadHandler.handle env kernel)
      (CgiWebServer.HeadHandler.handle env) := by
  unfold HeadHandler.handle CgiWebServer.HeadHandler.handle
  refine erases_bind (erases_beside _) fun txn => ?_
  cases txn.request.endpoint with
  | none => exact erases_beside _
  | some ep =>
      cases txn.request.route with
      | none => exact erases_beside _
      | some route =>
          refine erases_bind (erases_beside _) fun route => ?_
          cases route.hasScript with
          | true => exact erases_beside _
          | false =>
              exact erases_bind (erases_buildResponse _) fun _ =>
                erases_beside _

/-- Each work does in the transaction what it did there. -/
theorem erases_work (hattaches : calls.attaches = true) (w : Work) :
    Erases (w.run env kernel calls) (w.act env) := by
  cases w with
  | handler kind =>
      cases kind with
      | get => exact erases_getHandler hattaches
      | post => exact erases_postHandler hattaches
      | head => exact erases_headHandler
      | options => exact erases_beside _
  | page file =>
      cases file with
      | none => exact erases_beside _
      | some file =>
          refine erases_recover (erases_withFileStreamer kernel _ _) ?_ ?_
          · intro stop h
            cases stop with
            | raised e => cases h
            | pending => rfl
            | crash => rfl
          · intro stop q h
            cases stop with
            | raised e =>
                cases h
                exact ⟨_, rfl, erases_beside _⟩
            | pending => cases h
            | crash => cases h

end Erasure

end Resources

end CgiWebServer
