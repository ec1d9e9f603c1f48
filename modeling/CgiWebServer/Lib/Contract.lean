/-
Contracts: what a process needs, and what it leaves.

A contract has three parts: what holds of the state a process starts in,
what holds of the value and the state it returns with, and what holds of
the reason and the state it stops with. The third is there because
`recover` goes on from it. There is a rule for each operation of a
process; the contract of a program is put together from those of its
steps, each step's postcondition the next one's precondition.
-/
import CgiWebServer.Lib.Process

namespace Process

namespace Proc

variable {σ ε α β : Type}

/-- The end of a run, by the postcondition that is about it. -/
def EndsIn (Q : α → σ → Prop) (E : ε → σ → Prop) : Except ε α × σ → Prop
  | (.ok x, s) => Q x s
  | (.error e, s) => E e s

/-- Started where `P` holds, the process returns where `Q` holds or stops
where `E` holds. -/
def Contract (P : σ → Prop) (a : Proc σ ε α) (Q : α → σ → Prop)
    (E : ε → σ → Prop) : Prop :=
  ∀ s, P s → EndsIn Q E (a s)

variable {P P' : σ → Prop} {Q Q' : α → σ → Prop} {E E' : ε → σ → Prop}

/-- A stronger precondition, weaker postconditions. -/
theorem Contract.weaken {a : Proc σ ε α} (h : Contract P a Q E)
    (hpre : ∀ s, P' s → P s) (hpost : ∀ x s, Q x s → Q' x s)
    (hstop : ∀ e s, E e s → E' e s) : Contract P' a Q' E' := by
  intro s hs
  have hend := h s (hpre s hs)
  cases hrun : a s with
  | mk result s' =>
      rw [hrun] at hend
      cases result with
      | ok x => exact hpost x s' hend
      | error e => exact hstop e s' hend

/-- A stronger precondition. -/
theorem Contract.strengthen {a : Proc σ ε α} (h : Contract P a Q E)
    (hpre : ∀ s, P' s → P s) : Contract P' a Q E :=
  fun s hs => h s (hpre s hs)

/-- What a run that returned ended with. -/
theorem Contract.returned {a : Proc σ ε α} (h : Contract P a Q E)
    {s s' : σ} {x : α} (hs : P s) (hrun : a s = (.ok x, s')) : Q x s' := by
  have hend := h s hs
  rw [hrun] at hend
  exact hend

/-- What a run that stopped ended with. -/
theorem Contract.stopped {a : Proc σ ε α} (h : Contract P a Q E)
    {s s' : σ} {e : ε} (hs : P s) (hrun : a s = (.error e, s')) :
    E e s' := by
  have hend := h s hs
  rw [hrun] at hend
  exact hend

/-- What holds at both ends holds at the end. -/
theorem Contract.ended {a : Proc σ ε α} {R : σ → Prop}
    (h : Contract P a (fun _ => R) fun _ => R) {s : σ} (hs : P s) :
    R (a s).2 := by
  have hend := h s hs
  cases hrun : a s with
  | mk result s' =>
      rw [hrun] at hend
      cases result with
      | ok x => exact hend
      | error e => exact hend

theorem contract_pure {x : α} (h : ∀ s, P s → Q x s) :
    Contract P (pure x : Proc σ ε α) Q E :=
  fun s hs => h s hs

theorem contract_raise {e : ε} (h : ∀ s, P s → E e s) :
    Contract P (raise e : Proc σ ε α) Q E :=
  fun s hs => h s hs

theorem contract_modify {f : σ → σ} {Q : Unit → σ → Prop}
    (h : ∀ s, P s → Q () (f s)) :
    Contract P (modify f : Proc σ ε Unit) Q E :=
  fun s hs => h s hs

/-- A sequence that begins with a result that is there already. -/
theorem contract_ofExcept_bind {ε' : Type} {reason : ε' → ε}
    {r : Except ε' α} {f : α → Proc σ ε β} {Q : β → σ → Prop}
    (hok : ∀ x, r = .ok x → Contract P (f x) Q E)
    (herror : ∀ e, r = .error e → ∀ s, P s → E (reason e) s) :
    Contract P (ofExcept reason r >>= f) Q E := by
  cases r with
  | ok x => exact hok x rfl
  | error e => exact fun s hs => herror e rfl s hs

theorem contract_bind {a : Proc σ ε α} {f : α → Proc σ ε β}
    {M : α → σ → Prop} {Q : β → σ → Prop} (ha : Contract P a M E)
    (hf : ∀ x, Contract (M x) (f x) Q E) : Contract P (a >>= f) Q E := by
  intro s hs
  have hend := ha s hs
  rw [bind_apply]
  cases hrun : a s with
  | mk result s' =>
      rw [hrun] at hend
      cases result with
      | ok x => exact hf x s' hend
      | error e => exact hend

/-- A sequence that begins by reading the state, which it knows then. -/
theorem contract_get_bind {f : σ → Proc σ ε β} {Q : β → σ → Prop}
    (h : ∀ t, P t → Contract (fun s => s = t) (f t) Q E) :
    Contract P (get >>= f) Q E :=
  fun s hs => h s hs s rfl

/-- The same, where the state that was read does not matter. -/
theorem contract_read {f : σ → Proc σ ε β} {Q : β → σ → Prop}
    (h : ∀ t, Contract P (f t) Q E) : Contract P (get >>= f) Q E :=
  fun s hs => h s s hs

/-- A handler takes over where the process stops for a reason it
accepts. -/
theorem contract_recover {a : Proc σ ε α}
    {handler : ε → Option (Proc σ ε α)} {M : ε → σ → Prop}
    (ha : Contract P a Q M)
    (hhandled : ∀ e h, handler e = some h → Contract (M e) h Q E)
    (hpassed : ∀ e, handler e = none → ∀ s, M e s → E e s) :
    Contract P (recover a handler) Q E := by
  intro s hs
  have hend := ha s hs
  unfold recover
  cases hrun : a s with
  | mk result s' =>
      rw [hrun] at hend
      cases result with
      | ok x => exact hend
      | error e =>
          cases hhandler : handler e with
          | none =>
              simp only [hhandler]
              exact hpassed e hhandler s' hend
          | some h =>
              simp only [hhandler]
              exact hhandled e h hhandler s' hend

end Proc

end Process
