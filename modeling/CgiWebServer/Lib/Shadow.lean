/-
A second state beside a process.

A process over pairs of states can run a process that knows the first
state only (`beside`) and change the second one on its own (`aside`).
`withCleanup` is a scope with a cleanup: it is done when the body returns, and
when it stops for a reason that leaves the scope.

Such a process `Erases` to a process over the first state if it does the
same there and ends the same way, so
that what it adds is bookkeeping.
-/
import CgiWebServer.Lib.Process

namespace Process

namespace Proc

variable {σ γ ε α β : Type}

/-- A process over the first state. -/
def beside (a : Proc σ ε α) : Proc (σ × γ) ε α :=
  fun s => ((a s.1).1, (a s.1).2, s.2)

/-- A step of the second state. -/
def aside (f : γ → α × γ) : Proc (σ × γ) ε α :=
  fun s => (.ok (f s.2).1, s.1, (f s.2).2)

/-- A body with the cleanup of its scope. -/
def withCleanup (leaves : ε → Bool) (cleanup : γ → γ)
    (body : Proc (σ × γ) ε α) : Proc (σ × γ) ε α :=
  fun s =>
    match body s with
    | (.ok x, s') => (.ok x, s'.1, cleanup s'.2)
    | (.error e, s') =>
        (.error e, s'.1, if leaves e then cleanup s'.2 else s'.2)

theorem beside_apply (a : Proc σ ε α) (s : σ) (g : γ) :
    (beside a : Proc (σ × γ) ε α) (s, g) = ((a s).1, (a s).2, g) := rfl

@[simp] theorem aside_apply (f : γ → α × γ) (s : σ) (g : γ) :
    (aside f : Proc (σ × γ) ε α) (s, g) = (.ok (f g).1, s, (f g).2) := rfl

theorem beside_of_run {a : Proc σ ε α} {r : Except ε α} {s s' : σ}
    (h : a s = (r, s')) (g : γ) :
    (beside a : Proc (σ × γ) ε α) (s, g) = (r, s', g) := by
  rw [beside_apply, h]

/-- What follows on the first state leaves the second one alone. -/
theorem bind_beside_snd (p : Proc (σ × γ) ε α) (rest : α → Proc σ ε β)
    (s : σ × γ) : ((p >>= fun x => beside (rest x)) s).2.2 = (p s).2.2 := by
  rw [bind_apply]
  cases p s with
  | mk r s' => cases r <;> rfl

/-- A scope that is left has been cleaned up. -/
theorem withCleanup_snd {leaves : ε → Bool} (cleanup : γ → γ)
    {body : Proc (σ × γ) ε α} {s : σ × γ}
    (h : ∀ e, (body s).1 = .error e → leaves e = true) :
    (withCleanup leaves cleanup body s).2
      = ((body s).2.1, cleanup (body s).2.2) := by
  unfold withCleanup
  cases hrun : body s with
  | mk r s' =>
      cases r with
      | ok x => rfl
      | error e =>
          have hleaves : leaves e = true := h e (congrArg Prod.fst hrun)
          dsimp only
          rw [if_pos hleaves]

/-- How a scope ends is how its body does. -/
theorem withCleanup_fst (leaves : ε → Bool) (cleanup : γ → γ)
    (body : Proc (σ × γ) ε α) (s : σ × γ) :
    (withCleanup leaves cleanup body s).1 = (body s).1 := by
  unfold withCleanup
  cases body s with
  | mk r s' => cases r <;> rfl

-- ========================================================= left alone

/-- The process leaves the second state as it is. -/
def LeavesAside (p : Proc (σ × γ) ε α) : Prop := ∀ s, (p s).2.2 = s.2

theorem leavesAside_beside (a : Proc σ ε α) :
    LeavesAside (beside a : Proc (σ × γ) ε α) := fun _ => rfl

theorem leavesAside_pure (x : α) : LeavesAside (pure x : Proc (σ × γ) ε α) :=
  fun _ => rfl

theorem leavesAside_bind {p : Proc (σ × γ) ε α} {q : α → Proc (σ × γ) ε β}
    (hp : LeavesAside p) (hq : ∀ x, LeavesAside (q x)) :
    LeavesAside (p >>= q) := by
  intro s
  have hs := hp s
  rw [bind_apply]
  cases hrun : p s with
  | mk r s' =>
      rw [hrun] at hs
      cases r with
      | ok x => exact (hq x s').trans hs
      | error e => exact hs

/-- A handler that leaves it alone leaves it as it was when the process
stopped. -/
theorem recover_snd {p : Proc (σ × γ) ε α}
    {handler : ε → Option (Proc (σ × γ) ε α)}
    (h : ∀ e q, handler e = some q → LeavesAside q) (s : σ × γ) :
    (recover p handler s).2.2 = (p s).2.2 := by
  unfold recover
  cases p s with
  | mk r s' =>
      cases r with
      | ok x => rfl
      | error e =>
          cases hhandler : handler e with
          | none => simp only [hhandler]
          | some q =>
              simp only [hhandler]
              exact h e q hhandler s'

-- ================================================================ erasure

/-- On the first state, the process is this one. -/
def Erases (p : Proc (σ × γ) ε α) (a : Proc σ ε α) : Prop :=
  ∀ s g, (p (s, g)).1 = (a s).1 ∧ (p (s, g)).2.1 = (a s).2

theorem erases_beside (a : Proc σ ε α) :
    Erases (beside a : Proc (σ × γ) ε α) a :=
  fun _ _ => ⟨rfl, rfl⟩

theorem erases_bind {p : Proc (σ × γ) ε α} {a : Proc σ ε α}
    {q : α → Proc (σ × γ) ε β} {b : α → Proc σ ε β} (hp : Erases p a)
    (hq : ∀ x, Erases (q x) (b x)) : Erases (p >>= q) (a >>= b) := by
  intro s g
  obtain ⟨hend, hstate⟩ := hp s g
  rw [bind_apply, bind_apply]
  cases hrun : p (s, g) with
  | mk r s' =>
      cases hrun' : a s with
      | mk r' t =>
          rw [hrun, hrun'] at hend hstate
          dsimp only at hend hstate
          subst hend hstate
          cases r with
          | ok x => exact hq x s'.1 s'.2
          | error e => exact ⟨rfl, rfl⟩

/-- A step of the second state is erased. -/
theorem erases_aside_bind {f : γ → α × γ} {p : α → Proc (σ × γ) ε β}
    {a : Proc σ ε β} (h : ∀ x, Erases (p x) a) : Erases (aside f >>= p) a :=
  fun s g => h (f g).1 s (f g).2

theorem erases_bind_aside {p : Proc (σ × γ) ε Unit} {a : Proc σ ε Unit}
    (f : γ → Unit × γ) (h : Erases p a) :
    Erases (p >>= fun _ => aside f) a := by
  intro s g
  obtain ⟨hend, hstate⟩ := h s g
  rw [← hend, ← hstate, bind_apply]
  cases p (s, g) with
  | mk r s' => cases r <;> exact ⟨rfl, rfl⟩

/-- So is a cleanup. -/
theorem erases_withCleanup {leaves : ε → Bool} {cleanup : γ → γ}
    {p : Proc (σ × γ) ε α} {a : Proc σ ε α} (h : Erases p a) :
    Erases (withCleanup leaves cleanup p) a := by
  intro s g
  obtain ⟨hend, hstate⟩ := h s g
  rw [← hend, ← hstate]
  unfold withCleanup
  cases p (s, g) with
  | mk r s' =>
      cases r with
      | ok x => exact ⟨rfl, rfl⟩
      | error e => exact ⟨rfl, rfl⟩

theorem erases_recover {p : Proc (σ × γ) ε α} {a : Proc σ ε α}
    {handler : ε → Option (Proc (σ × γ) ε α)}
    {handler' : ε → Option (Proc σ ε α)} (h : Erases p a)
    (hnone : ∀ e, handler e = none → handler' e = none)
    (hsome : ∀ e q, handler e = some q →
      ∃ b, handler' e = some b ∧ Erases q b) :
    Erases (recover p handler) (recover a handler') := by
  intro s g
  obtain ⟨hend, hstate⟩ := h s g
  unfold recover
  cases hrun : p (s, g) with
  | mk r s' =>
      cases hrun' : a s with
      | mk r' t =>
          rw [hrun, hrun'] at hend hstate
          dsimp only at hend hstate
          subst hend hstate
          cases r with
          | ok x => exact ⟨rfl, rfl⟩
          | error e =>
              cases hhandler : handler e with
              | none =>
                  simp [hhandler, hnone e hhandler]
              | some q =>
                  obtain ⟨b, hb, hq⟩ := hsome e q hhandler
                  simp only [hhandler, hb]
                  exact hq s'.1 s'.2

end Proc

end Process
