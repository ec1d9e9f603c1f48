/-
Threads over a shared state, under any interleaving.

A program says what a thread starts as and what one of its moves does to
the shared state and to itself. A system is the shared state with the
threads that have arrived, in order of arrival; it grows by arrivals and
steps by one move of one thread. Nothing bounds the number of threads
and nothing restricts the order of moves, so a fact about every
reachable system is a fact about every interleaving.

Reachability takes a condition on steps, so that one development can
state a result over all runs and another over the runs whose steps meet
a condition. The invariant rule asks for two things: arrivals keep it,
and moves keep it. Invariants that count threads use `count_set`, the
accounting of one thread changing.
-/
import Mathlib.Data.List.Basic

namespace Interleave

-- =============================================================== systems

/-- The shared state and the threads over it. -/
structure Sys (σ τ : Type) where
  shared : σ
  threads : List τ
  deriving DecidableEq, Repr

/-- What can happen next: a thread arrives, or one thread moves. -/
inductive Action (ρ α : Type)
  | arrive (request : ρ)
  | move (i : Nat) (a : α)
  deriving DecidableEq, Repr

/-- A concurrent program. A move that a thread cannot make is `none`. -/
structure Program (σ τ ρ α : Type) where
  start : ρ → τ
  step : α → σ → τ → Option (σ × τ)

variable {σ τ ρ α : Type}

namespace Program

variable (p : Program σ τ ρ α)

/-- One action on a system. -/
def apply : Action ρ α → Sys σ τ → Option (Sys σ τ)
  | .arrive r, s => some ⟨s.shared, s.threads ++ [p.start r]⟩
  | .move i a, s =>
      match s.threads[i]? with
      | none => none
      | some t =>
          match p.step a s.shared t with
          | none => none
          | some (shared, t') => some ⟨shared, s.threads.set i t'⟩

/-- A schedule, action by action. -/
def run : List (Action ρ α) → Sys σ τ → Option (Sys σ τ)
  | [], s => some s
  | x :: rest, s =>
      match p.apply x s with
      | none => none
      | some s' => run rest s'

/-- The systems reached from `init` without threads, by steps that meet
`ok`. -/
inductive Reach (ok : Sys σ τ → Action ρ α → Prop) (init : σ) :
    Sys σ τ → Prop
  | start : Reach ok init ⟨init, []⟩
  | step {s s' : Sys σ τ} {x : Action ρ α} :
      Reach ok init s → ok s x → p.apply x s = some s' → Reach ok init s'

variable {p}

/-- What a move does: some thread of the system takes its step. -/
theorem apply_move {s s' : Sys σ τ} {i : Nat} {a : α}
    (happly : p.apply (.move i a) s = some s') :
    ∃ t shared t', s.threads[i]? = some t
      ∧ p.step a s.shared t = some (shared, t')
      ∧ s' = ⟨shared, s.threads.set i t'⟩ := by
  simp only [apply] at happly
  cases ht : s.threads[i]? with
  | none =>
      rw [ht] at happly
      exact absurd happly (by simp)
  | some t =>
      simp only [ht] at happly
      cases hstep : p.step a s.shared t with
      | none =>
          rw [hstep] at happly
          exact absurd happly (by simp)
      | some next =>
          obtain ⟨shared, t'⟩ := next
          simp only [hstep, Option.some.injEq] at happly
          exact ⟨t, shared, t', rfl, hstep, happly.symm⟩

-- ======================================================== the schedules

/-- A schedule that begins with an action begins with its system. -/
theorem run_cons {s s' : Sys σ τ} {x : Action ρ α}
    {rest : List (Action ρ α)} (hrun : p.run (x :: rest) s = some s') :
    ∃ mid, p.apply x s = some mid ∧ p.run rest mid = some s' := by
  unfold Program.run at hrun
  cases happly : p.apply x s with
  | none =>
      rw [happly] at hrun
      exact absurd hrun (by simp)
  | some mid =>
      rw [happly] at hrun
      exact ⟨mid, rfl, hrun⟩

/-- The same, packed. -/
theorem run_cons_of {s mid : Sys σ τ} {x : Action ρ α}
    (happly : p.apply x s = some mid) (rest : List (Action ρ α)) :
    p.run (x :: rest) s = p.run rest mid := by
  rw [Program.run, happly]

/-- A schedule run after another goes on from where that one ended. -/
theorem run_append {s mid : Sys σ τ} {xs : List (Action ρ α)}
    (hrun : p.run xs s = some mid) (ys : List (Action ρ α)) :
    p.run (xs ++ ys) s = p.run ys mid := by
  induction xs generalizing s with
  | nil =>
      obtain rfl := Option.some.inj hrun
      rfl
  | cons x xs ih =>
      obtain ⟨next, happly, hrest⟩ := run_cons hrun
      rw [List.cons_append, run_cons_of happly, ih hrest]

/-- A schedule that ran through did each part of it. -/
theorem run_split {s s' : Sys σ τ} {xs ys : List (Action ρ α)}
    (hrun : p.run (xs ++ ys) s = some s') :
    ∃ mid, p.run xs s = some mid ∧ p.run ys mid = some s' := by
  induction xs generalizing s with
  | nil => exact ⟨s, rfl, hrun⟩
  | cons x xs ih =>
      obtain ⟨next, happly, hrest⟩ := run_cons hrun
      obtain ⟨mid, hxs, hys⟩ := ih hrest
      exact ⟨mid, (run_cons_of happly xs).trans hxs, hys⟩

-- ======================================================== the invariant

variable {ok : Sys σ τ → Action ρ α → Prop} {init : σ}

/-- The invariant rule: a property of the empty system that arrivals and
moves keep holds of every reachable system. -/
theorem Reach.invariant {Inv : Sys σ τ → Prop} {s : Sys σ τ}
    (hs : p.Reach ok init s) (hstart : Inv ⟨init, []⟩)
    (harrive : ∀ s r, Inv s → ok s (.arrive r) →
      Inv ⟨s.shared, s.threads ++ [p.start r]⟩)
    (hmove : ∀ s i a t shared t', Inv s → ok s (.move i a) →
      s.threads[i]? = some t → p.step a s.shared t = some (shared, t') →
      Inv ⟨shared, s.threads.set i t'⟩) : Inv s := by
  induction hs with
  | start => exact hstart
  | @step s s' x _ hok happly ih =>
      cases x with
      | arrive r =>
          obtain rfl := Option.some.inj happly
          exact harrive s r ih hok
      | move i a =>
          obtain ⟨t, shared, t', ht, hstep, rfl⟩ := apply_move happly
          exact hmove s i a t shared t' ih hok ht hstep

/-- A schedule run from a reachable system stays reachable, where no
condition is put on steps. -/
theorem Reach.run {s s' : Sys σ τ} {schedule : List (Action ρ α)}
    (hs : p.Reach (fun _ _ => True) init s)
    (hrun : p.run schedule s = some s') :
    p.Reach (fun _ _ => True) init s' := by
  induction schedule generalizing s with
  | nil =>
      obtain rfl := Option.some.inj hrun
      exact hs
  | cons x rest ih =>
      obtain ⟨mid, happly, hrest⟩ := run_cons hrun
      exact ih (hs.step trivial happly) hrest

/-- Whether every action of a schedule meets a condition where it
stands. -/
def meets (p : Program σ τ ρ α) (ok : Sys σ τ → Action ρ α → Bool) :
    List (Action ρ α) → Sys σ τ → Bool
  | [], _ => true
  | x :: rest, s =>
      ok s x &&
        match p.apply x s with
        | none => false
        | some s' => meets p ok rest s'

/-- A schedule whose actions meet the condition stays among the systems
reached under it. -/
theorem Reach.along {ok : Sys σ τ → Action ρ α → Bool} {s s' : Sys σ τ}
    {schedule : List (Action ρ α)}
    (hs : p.Reach (fun s x => ok s x = true) init s)
    (hrun : p.run schedule s = some s')
    (hmeets : p.meets ok schedule s = true) :
    p.Reach (fun s x => ok s x = true) init s' := by
  induction schedule generalizing s with
  | nil =>
      obtain rfl := Option.some.inj hrun
      exact hs
  | cons x rest ih =>
      obtain ⟨mid, happly, hrun⟩ := run_cons hrun
      unfold Program.meets at hmeets
      obtain ⟨hok, hrest⟩ := Bool.and_eq_true_iff.mp hmeets
      rw [happly] at hrest
      exact ih (hs.step hok happly) hrun hrest

end Program

-- ===================================================== counting threads

/-- The accounting of one thread changing: it leaves the count as what it
was and enters it as what it became. -/
theorem count_set (counts : τ → Bool) {threads : List τ} {i : Nat} {t : τ}
    (ht : threads[i]? = some t) (t' : τ) :
    (threads.set i t').countP counts + (counts t).toNat
      = threads.countP counts + (counts t').toNat := by
  induction threads generalizing i with
  | nil => exact absurd ht (by simp)
  | cons u rest ih =>
      cases i with
      | zero =>
          obtain rfl : u = t := by simpa using ht
          cases hu : counts u <;> cases ht' : counts t' <;>
            simp [hu, ht']
      | succ i =>
          have hrest := ih (i := i) (by simpa using ht)
          rw [List.set_cons_succ, List.countP_cons, List.countP_cons]
          omega

/-- A thread that arrives uncounted changes no count. -/
theorem count_arrive (counts : τ → Bool) (threads : List τ) {t : τ}
    (ht : counts t = false) :
    (threads ++ [t]).countP counts = threads.countP counts := by
  simp [ht]

/-- With nothing counted, no thread of the system is of the kind. -/
theorem not_counted (counts : τ → Bool) {threads : List τ}
    (hnone : threads.countP counts = 0) {t : τ} (ht : t ∈ threads) :
    counts t = false := by
  rw [List.countP_eq_zero] at hnone
  exact Bool.eq_false_iff.mpr (hnone t ht)

/-- With at most one counted, the counted thread is at one place. -/
theorem counted_once (counts : τ → Bool) {threads : List τ} {i j : Nat}
    {t u : τ} (hone : threads.countP counts ≤ 1)
    (ht : threads[i]? = some t) (hu : threads[j]? = some u)
    (hct : counts t = true) (hcu : counts u = true) : i = j := by
  induction threads generalizing i j with
  | nil => exact absurd ht (by simp)
  | cons v rest ih =>
      rw [List.countP_cons] at hone
      have hfirst : ∀ {k : Nat} {w : τ}, rest[k]? = some w →
          counts w = true → ¬ counts v = true := by
        intro k w hw hcw hcv
        have hpos := List.countP_pos_iff.mpr
          ⟨w, List.mem_of_getElem? hw, hcw⟩
        rw [if_pos hcv] at hone
        omega
      cases i with
      | zero =>
          obtain rfl : v = t := by simpa using ht
          cases j with
          | zero => rfl
          | succ j => exact absurd hct (hfirst (by simpa using hu) hcu)
      | succ i =>
          have ht' : rest[i]? = some t := by simpa using ht
          cases j with
          | zero =>
              obtain rfl : v = u := by simpa using hu
              exact absurd hcu (hfirst ht' hct)
          | succ j =>
              exact congrArg (· + 1)
                (ih (by omega) ht' (by simpa using hu))

/-- What holds of every other thread and of what the moved one became
holds of every thread. -/
theorem forall_set_others {P : τ → Prop} {threads : List τ} {i : Nat}
    {t' : τ} (hother : ∀ j u, j ≠ i → threads[j]? = some u → P u)
    (ht' : P t') : ∀ t ∈ threads.set i t', P t := by
  intro t ht
  obtain ⟨j, hj⟩ := List.mem_iff_getElem?.mp ht
  by_cases hji : j = i
  · subst hji
    have hlen : j < threads.length := by
      obtain ⟨hlen, -⟩ := List.getElem?_eq_some_iff.mp hj
      rwa [List.length_set] at hlen
    rw [List.getElem?_set_self hlen] at hj
    exact Option.some.inj hj ▸ ht'
  · rw [List.getElem?_set_ne (Ne.symm hji)] at hj
    exact hother j t hji hj

/-- What holds of every thread survives a move that keeps it. -/
theorem forall_set {P : τ → Prop} {threads : List τ} {i : Nat} {t' : τ}
    (hall : ∀ t ∈ threads, P t) (ht' : P t') :
    ∀ t ∈ threads.set i t', P t := by
  intro t ht
  cases List.mem_or_eq_of_mem_set ht with
  | inl hmem => exact hall t hmem
  | inr heq => exact heq ▸ ht'

/-- What holds of every thread survives an arrival. -/
theorem forall_arrive {P : τ → Prop} {threads : List τ} {t' : τ}
    (hall : ∀ t ∈ threads, P t) (ht' : P t') :
    ∀ t ∈ threads ++ [t'], P t := by
  intro t ht
  cases List.mem_append.mp ht with
  | inl hmem => exact hall t hmem
  | inr hnew => exact List.mem_singleton.mp hnew ▸ ht'

end Interleave
