/-
Processes: computations over a state that may stop early.

A process takes a state to a state and either a value or the reason it
stopped; the state it had when it stopped is kept, so effects made
before an exception are not undone by it. `recover` runs a handler from
there for the reasons it accepts and lets every other reason pass.

Two kinds of rule are used of it. `bind_ok` and its companions take a run
that returned apart into the runs of its parts. `Within` is a frame rule:
if a relation between states is reflexive and transitive, a process all
of whose steps stay within it stays within it, however it ends, and if
every step stops only for reasons of a kind, so does the process.
-/
import Mathlib.Order.Basic

namespace Process

/-- A computation over `σ` that may stop for a reason in `ε`. -/
def Proc (σ ε α : Type) : Type := σ → Except ε α × σ

variable {σ ε α β : Type}

namespace Proc

protected def pure (x : α) : Proc σ ε α := fun s => (.ok x, s)

protected def bind (a : Proc σ ε α) (f : α → Proc σ ε β) : Proc σ ε β :=
  fun s =>
    match a s with
    | (.ok x, s') => f x s'
    | (.error e, s') => (.error e, s')

instance : Monad (Proc σ ε) where
  pure := Proc.pure
  bind := Proc.bind

/-- The state. -/
def get : Proc σ ε σ := fun s => (.ok s, s)

/-- A change of the state. -/
def modify (f : σ → σ) : Proc σ ε Unit := fun s => (.ok (), f s)

/-- Stopping. -/
def raise (e : ε) : Proc σ ε α := fun s => (.error e, s)

/-- A result that is there already, its failure a reason to stop. -/
def ofExcept {ε' : Type} (reason : ε' → ε) (r : Except ε' α) :
    Proc σ ε α :=
  fun s =>
    match r with
    | .ok x => (.ok x, s)
    | .error e => (.error (reason e), s)

/-- A process, and what to go on with for the reasons `handler`
accepts. -/
def recover (a : Proc σ ε α) (handler : ε → Option (Proc σ ε α)) :
    Proc σ ε α :=
  fun s =>
    match a s with
    | (.ok x, s') => (.ok x, s')
    | (.error e, s') =>
        match handler e with
        | some h => h s'
        | none => (.error e, s')

-- ========================================================== equations

@[simp] theorem pure_apply (x : α) (s : σ) :
    (pure x : Proc σ ε α) s = (.ok x, s) := rfl

theorem bind_apply (a : Proc σ ε α) (f : α → Proc σ ε β) (s : σ) :
    (a >>= f) s
      = match a s with
        | (.ok x, s') => f x s'
        | (.error e, s') => (.error e, s') := rfl

@[simp] theorem get_apply (s : σ) :
    (get : Proc σ ε σ) s = (.ok s, s) := rfl

@[simp] theorem modify_apply (f : σ → σ) (s : σ) :
    (modify f : Proc σ ε Unit) s = (.ok (), f s) := rfl

@[simp] theorem raise_apply (e : ε) (s : σ) :
    (raise e : Proc σ ε α) s = (.error e, s) := rfl

@[simp] theorem ofExcept_ok {ε' : Type} (reason : ε' → ε) (x : α)
    (s : σ) : (ofExcept reason (.ok x) : Proc σ ε α) s = (.ok x, s) := rfl

@[simp] theorem ofExcept_error {ε' : Type} (reason : ε' → ε) (e : ε')
    (s : σ) :
    (ofExcept reason (.error e) : Proc σ ε α) s
      = (.error (reason e), s) := rfl

/-- A sequence whose first part returns goes on with the second. -/
theorem bind_of_ok {a : Proc σ ε α} {f : α → Proc σ ε β} {s s' : σ}
    {x : α} (h : a s = (.ok x, s')) : (a >>= f) s = f x s' := by
  rw [bind_apply, h]

/-- A sequence whose first part stops has stopped. -/
theorem bind_of_error {a : Proc σ ε α} {f : α → Proc σ ε β} {s s' : σ}
    {e : ε} (h : a s = (.error e, s')) : (a >>= f) s = (.error e, s') := by
  rw [bind_apply, h]

/-- Sequences associate. -/
protected theorem bind_assoc {γ : Type} (a : Proc σ ε α) (f : α → Proc σ ε β)
    (g : β → Proc σ ε γ) : a >>= f >>= g = a >>= fun x => f x >>= g := by
  funext s
  rw [bind_apply, bind_apply, bind_apply]
  cases a s with
  | mk r s' => cases r <;> rfl

protected theorem pure_bind (x : α) (f : α → Proc σ ε β) :
    (pure x : Proc σ ε α) >>= f = f x := rfl

/-- A sequence that returned: both parts did. -/
theorem bind_ok {a : Proc σ ε α} {f : α → Proc σ ε β} {s s'' : σ} {y : β}
    (h : (a >>= f) s = (.ok y, s'')) :
    ∃ x s', a s = (.ok x, s') ∧ f x s' = (.ok y, s'') := by
  rw [bind_apply] at h
  cases ha : a s with
  | mk result s' =>
      rw [ha] at h
      cases result with
      | ok x => exact ⟨x, s', rfl, h⟩
      | error e => cases h

/-- A sequence that begins by reading the state. -/
theorem get_bind {f : σ → Proc σ ε β} {s : σ} {r : Except ε β × σ}
    (h : (get >>= f) s = r) : f s s = r := h

/-- A sequence that begins by changing the state. -/
theorem modify_bind {g : σ → σ} {f : Unit → Proc σ ε β} {s : σ}
    {r : Except ε β × σ} (h : (modify g >>= f) s = r) :
    f () (g s) = r := h

/-- A sequence that begins with a result that is there already, and
returned: the result was a value. -/
theorem ofExcept_bind_ok {ε' : Type} {reason : ε' → ε} {r : Except ε' α}
    {f : α → Proc σ ε β} {s s' : σ} {y : β}
    (h : (ofExcept reason r >>= f) s = (.ok y, s')) :
    ∃ x, r = .ok x ∧ f x s = (.ok y, s') := by
  cases r with
  | ok x => exact ⟨x, rfl, h⟩
  | error e => cases h

-- ============================================================== frames

/-- Every run of the process relates its two states by `R`, and stops, if
it does, for a reason of the kind `Q`. -/
def Within (R : σ → σ → Prop) (Q : ε → Prop) (a : Proc σ ε α) : Prop :=
  ∀ s, R s (a s).2 ∧ ∀ e, (a s).1 = .error e → Q e

section Frame

variable {R : σ → σ → Prop} {Q : ε → Prop}

theorem within_pure (hrefl : ∀ s, R s s) (x : α) :
    Within R Q (pure x : Proc σ ε α) :=
  fun s => ⟨hrefl s, fun _ he => by cases he⟩

theorem within_get (hrefl : ∀ s, R s s) :
    Within R Q (get : Proc σ ε σ) :=
  fun s => ⟨hrefl s, fun _ he => by cases he⟩

theorem within_raise (hrefl : ∀ s, R s s) {e : ε} (he : Q e) :
    Within R Q (raise e : Proc σ ε α) :=
  fun s => ⟨hrefl s, fun _ h => Except.error.inj h ▸ he⟩

theorem within_ofExcept (hrefl : ∀ s, R s s) {ε' : Type}
    {reason : ε' → ε} {r : Except ε' α}
    (hr : ∀ e, r = .error e → Q (reason e)) :
    Within R Q (ofExcept reason r : Proc σ ε α) := by
  intro s
  cases r with
  | ok x => exact ⟨hrefl s, fun _ he => by cases he⟩
  | error e => exact ⟨hrefl s, fun _ h => Except.error.inj h ▸ hr e rfl⟩

theorem within_modify {f : σ → σ} (hf : ∀ s, R s (f s)) :
    Within R Q (modify f : Proc σ ε Unit) :=
  fun s => ⟨hf s, fun _ he => by cases he⟩

theorem within_bind (htrans : ∀ s t u, R s t → R t u → R s u)
    {a : Proc σ ε α} {f : α → Proc σ ε β} (ha : Within R Q a)
    (hf : ∀ x, Within R Q (f x)) : Within R Q (a >>= f) := by
  intro s
  have hs := ha s
  rw [bind_apply]
  cases hrun : a s with
  | mk result s' =>
      rw [hrun] at hs
      cases result with
      | ok x => exact ⟨htrans _ _ _ hs.1 (hf x s').1, (hf x s').2⟩
      | error e =>
          exact ⟨hs.1, fun _ h => hs.2 _ (congrArg _ (Except.error.inj h))⟩

/-- A result that is there already, with what is known of it. -/
theorem within_ofExcept_bind (hrefl : ∀ s, R s s) {ε' : Type}
    {reason : ε' → ε} {r : Except ε' α} {f : α → Proc σ ε β}
    (hr : ∀ e, r = .error e → Q (reason e))
    (hf : ∀ x, r = .ok x → Within R Q (f x)) :
    Within R Q (ofExcept reason r >>= f) := by
  cases r with
  | ok x => exact hf x rfl
  | error e =>
      exact fun s => ⟨hrefl s, fun _ h => Except.error.inj h ▸ hr e rfl⟩

theorem within_recover (htrans : ∀ s t u, R s t → R t u → R s u)
    {a : Proc σ ε α} {handler : ε → Option (Proc σ ε α)}
    (ha : Within R Q a)
    (hh : ∀ e h, Q e → handler e = some h → Within R Q h) :
    Within R Q (recover a handler) := by
  intro s
  have hs := ha s
  unfold recover
  cases hrun : a s with
  | mk result s' =>
      rw [hrun] at hs
      cases result with
      | ok x => exact hs
      | error e =>
          have he := hs.2 e rfl
          cases hhandler : handler e with
          | none =>
              simp only [hhandler]
              exact hs
          | some h =>
              simp only [hhandler]
              have hrest := hh e h he hhandler s'
              exact ⟨htrans _ _ _ hs.1 hrest.1, hrest.2⟩

end Frame

end Proc

end Process
