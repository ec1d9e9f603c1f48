/-
One program refines another, over every schedule.

A refinement mapping reads an abstract shared state off the concrete one
and an abstract thread off each concrete thread, such that a move of a
thread is, read so, one move of that thread or none at all. The run rule
turns any schedule of the concrete program into one of the abstract
program. It says more than that the states reached correspond: the new
schedule is the old one with every move replaced by at most one move of
the same thread (`Carries`), and the two stay matched at every prefix.
So whatever a thread does in the abstract program it does at one of its
own moves in the concrete one, after it arrived and before it was done.
That is what makes a refinement of an atomic program a linearization.
-/
import CgiWebServer.Lib.Interleave

namespace Interleave

variable {σ τ σ' τ' ρ α α' : Type}

-- ============================================================ schedules

/-- The second schedule is the first with every move replaced by at most
one move of the same thread, as `becomes` allows. -/
inductive Carries (becomes : α → α' → Prop) :
    List (Action ρ α) → List (Action ρ α') → Prop
  | done : Carries becomes [] []
  | arrive {xs : List (Action ρ α)} {ys : List (Action ρ α')} (r : ρ) :
      Carries becomes xs ys →
        Carries becomes (.arrive r :: xs) (.arrive r :: ys)
  | stutter {xs : List (Action ρ α)} {ys : List (Action ρ α')} (i : Nat)
      (a : α) : Carries becomes xs ys → Carries becomes (.move i a :: xs) ys
  | move {xs : List (Action ρ α)} {ys : List (Action ρ α')} {i : Nat}
      {a : α} {a' : α'} : becomes a a' → Carries becomes xs ys →
        Carries becomes (.move i a :: xs) (.move i a' :: ys)

/-- A move carried along was a move of the same thread. -/
theorem Carries.mem {becomes : α → α' → Prop} {xs : List (Action ρ α)}
    {ys : List (Action ρ α')} (h : Carries becomes xs ys) {i : Nat}
    {a' : α'} (hmem : Action.move i a' ∈ ys) :
    ∃ a, becomes a a' ∧ Action.move i a ∈ xs := by
  induction h with
  | done => exact absurd hmem (by simp)
  | arrive r _ ih =>
      obtain ⟨a, hbecomes, ha⟩ := ih (by simpa using hmem)
      exact ⟨a, hbecomes, List.mem_cons_of_mem _ ha⟩
  | stutter j b _ ih =>
      obtain ⟨a, hbecomes, ha⟩ := ih hmem
      exact ⟨a, hbecomes, List.mem_cons_of_mem _ ha⟩
  | move hbecomes _ ih =>
      rcases List.mem_cons.mp hmem with hhead | htail
      · obtain ⟨rfl, rfl⟩ := Action.move.inj hhead
        exact ⟨_, hbecomes, List.mem_cons_self⟩
      · obtain ⟨a, hbecomes, ha⟩ := ih htail
        exact ⟨a, hbecomes, List.mem_cons_of_mem _ ha⟩

-- ========================================================== one thread

/-- What a thread is after one of them changed. -/
theorem getElem?_set_cases {threads : List τ} {i j : Nat} {t' u : τ}
    (h : (threads.set i t')[j]? = some u) :
    (j = i ∧ u = t') ∨ (j ≠ i ∧ threads[j]? = some u) := by
  by_cases hji : j = i
  · subst hji
    have hlt : j < threads.length := by
      obtain ⟨hlt, -⟩ := List.getElem?_eq_some_iff.mp h
      rwa [List.length_set] at hlt
    rw [List.getElem?_set_self hlt] at h
    exact Or.inl ⟨rfl, (Option.some.inj h).symm⟩
  · rw [List.getElem?_set_ne (Ne.symm hji)] at h
    exact Or.inr ⟨hji, h⟩

/-- What a thread is after another arrived. -/
theorem getElem?_arrive_cases {threads : List τ} {j : Nat} {t' u : τ}
    (h : (threads ++ [t'])[j]? = some u) :
    u = t' ∨ threads[j]? = some u := by
  rcases Nat.lt_or_ge j threads.length with hlt | hge
  · rw [List.getElem?_append_left hlt] at h
    exact Or.inr h
  · rw [List.getElem?_append_right hge] at h
    have hmem := List.mem_of_getElem? h
    exact Or.inl (List.mem_singleton.mp hmem)

-- =========================================================== refinement

/-- A refinement mapping from one program to another, under an invariant
of the concrete one. -/
structure Refinement (p : Program σ τ ρ α) (q : Program σ' τ' ρ α')
    (becomes : α → α' → Prop) where
  shared : σ → σ'
  thread : τ → τ'
  Inv : Sys σ τ → Prop
  start : ∀ r, thread (p.start r) = q.start r
  arrive : ∀ {sys : Sys σ τ} (r : ρ), Inv sys →
    Inv ⟨sys.shared, sys.threads ++ [p.start r]⟩
  keep : ∀ {sys : Sys σ τ} {i : Nat} {a : α} {t t' : τ} {m : σ},
    Inv sys → sys.threads[i]? = some t →
    p.step a sys.shared t = some (m, t') →
    Inv ⟨m, sys.threads.set i t'⟩
  move : ∀ {sys : Sys σ τ} {i : Nat} {a : α} {t t' : τ} {m : σ},
    Inv sys → sys.threads[i]? = some t →
    p.step a sys.shared t = some (m, t') →
    (shared m = shared sys.shared ∧ thread t' = thread t)
      ∨ ∃ a', becomes a a' ∧ q.step a' (shared sys.shared) (thread t)
          = some (shared m, thread t')

namespace Refinement

variable {p : Program σ τ ρ α} {q : Program σ' τ' ρ α'}
variable {becomes : α → α' → Prop} (f : Refinement p q becomes)

/-- A concrete system, read as an abstract one. -/
def sys (s : Sys σ τ) : Sys σ' τ' :=
  ⟨f.shared s.shared, s.threads.map f.thread⟩

/-- What one action of the concrete program is in the abstract one:
nothing, or one action that a schedule carried along has there. -/
theorem apply {s s' : Sys σ τ} {x : Action ρ α} (hinv : f.Inv s)
    (happly : p.apply x s = some s') :
    f.Inv s' ∧ ∃ ys : List (Action ρ α'),
      q.run ys (f.sys s) = some (f.sys s')
        ∧ ∀ {xs zs}, Carries becomes xs zs →
            Carries becomes (x :: xs) (ys ++ zs) := by
  cases x with
  | arrive r =>
      obtain rfl := Option.some.inj happly
      refine ⟨f.arrive r hinv, [.arrive r], ?_, fun hrest => .arrive r hrest⟩
      simp [Program.run, Program.apply, Refinement.sys, f.start]
  | move i a =>
      obtain ⟨t, m, t', ht, hstep, rfl⟩ := Program.apply_move happly
      have hread : (s.threads.map f.thread)[i]? = some (f.thread t) := by
        rw [List.getElem?_map, ht, Option.map_some]
      have hset : (s.threads.set i t').map f.thread
          = (s.threads.map f.thread).set i (f.thread t') := List.map_set
      refine ⟨f.keep hinv ht hstep, ?_⟩
      rcases f.move hinv ht hstep with ⟨hshared, hthread⟩
        | ⟨a', hbecomes, hmove⟩
      · refine ⟨[], ?_, fun hrest => .stutter i a hrest⟩
        obtain ⟨hlt, hget⟩ := List.getElem?_eq_some_iff.mp hread
        have hsame : (s.threads.map f.thread).set i (f.thread t')
            = s.threads.map f.thread := by
          rw [hthread, ← hget]
          exact List.set_getElem_self hlt
        simp [Program.run, Refinement.sys, hshared, hset, hsame]
      · refine ⟨[.move i a'], ?_, fun hrest => .move hbecomes hrest⟩
        simp [Program.run, Program.apply, Refinement.sys, hread, hmove,
          hset]

/-- The run rule: a schedule of the concrete program carries one of the
abstract program along, which reaches what the systems reached are read
as, at the end and at every prefix. -/
theorem run {schedule : List (Action ρ α)} {s s' : Sys σ τ}
    (hinv : f.Inv s) (hrun : p.run schedule s = some s') :
    ∃ schedule' : List (Action ρ α'), Carries becomes schedule schedule'
      ∧ q.run schedule' (f.sys s) = some (f.sys s')
      ∧ ∀ before after mid, schedule = before ++ after →
          p.run before s = some mid →
          ∃ before' after', schedule' = before' ++ after'
            ∧ q.run before' (f.sys s) = some (f.sys mid) := by
  induction schedule generalizing s with
  | nil =>
      obtain rfl := Option.some.inj hrun
      refine ⟨[], .done, rfl, ?_⟩
      intro before after mid hsplit hmid
      obtain ⟨rfl, rfl⟩ := List.append_eq_nil_iff.mp hsplit.symm
      obtain rfl := Option.some.inj hmid
      exact ⟨[], [], rfl, rfl⟩
  | cons x rest ih =>
      obtain ⟨next, happly, hrest⟩ := Program.run_cons hrun
      obtain ⟨hnext, ys, hys, hcarry⟩ := f.apply hinv happly
      obtain ⟨zs, hcarries, hzs, hprefix⟩ := ih hnext hrest
      refine ⟨ys ++ zs, hcarry hcarries, ?_, ?_⟩
      · rw [Program.run_append hys, hzs]
      · intro before after mid hsplit hmid
        -- A prefix is empty or begins with the action just carried over;
        -- only the second needs the rest of the run.
        cases before with
        | nil =>
            obtain rfl := Option.some.inj hmid
            exact ⟨[], ys ++ zs, rfl, rfl⟩
        | cons x' before =>
            obtain ⟨rfl, rfl⟩ := List.cons_eq_cons.mp hsplit
            rw [Program.run_cons_of happly] at hmid
            obtain ⟨before', after', rfl, hbefore⟩ :=
              hprefix before after mid rfl hmid
            refine ⟨ys ++ before', after', (List.append_assoc ..).symm, ?_⟩
            rw [Program.run_append hys, hbefore]

end Refinement

end Interleave
