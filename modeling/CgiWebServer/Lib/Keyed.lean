/-
State machines that keep something for each key.

A machine answers calls one after the other from one state. Each call has
a key, or none. If an answer depends only on what the state keeps for the
call's own key, and a call changes nothing kept for other keys (`ByKey`),
then a key sees a machine of its own: its answers, and what is kept for
it, are those of the run of its calls alone.
-/
import Mathlib.Data.List.Basic

namespace Keyed

variable {σ ι ο κ β : Type}

/-- The calls of a run with their answers. -/
def trace (serve : σ → ι → σ × ο) : σ → List ι → List (ι × ο)
  | _, [] => []
  | s, c :: rest => (c, (serve s c).2) :: trace serve (serve s c).1 rest

/-- The state a run ends in. -/
def final (serve : σ → ι → σ × ο) (s : σ) (calls : List ι) : σ :=
  calls.foldl (fun s c => (serve s c).1) s

/-- What a machine keeps, it keeps by key: `get` reads what a state keeps
for a key. -/
structure ByKey (serve : σ → ι → σ × ο) (key : ι → Option κ)
    (get : σ → κ → β) : Prop where
  own : ∀ {s s' : σ} {c : ι} {k : κ}, key c = some k → get s k = get s' k →
    (serve s c).2 = (serve s' c).2
      ∧ get (serve s c).1 k = get (serve s' c).1 k
  other : ∀ (s : σ) {c : ι} {k : κ}, key c ≠ some k →
    get (serve s c).1 k = get s k

variable {serve : σ → ι → σ × ο} {key : ι → Option κ} {get : σ → κ → β}
variable [DecidableEq κ]

/-- The calls of a key. -/
def callsOf (key : ι → Option κ) (k : κ) (calls : List ι) : List ι :=
  calls.filter fun c => key c = some k

/-- From states that keep the same for a key, a run answers the key's
calls as the run of these calls alone, and keeps the same for it. -/
theorem ByKey.alone (h : ByKey serve key get) (k : κ) (calls : List ι) :
    ∀ {s s' : σ}, get s k = get s' k →
      (trace serve s calls).filter (fun a => key a.1 = some k)
          = trace serve s' (callsOf key k calls)
        ∧ get (final serve s calls) k
          = get (final serve s' (callsOf key k calls)) k := by
  induction calls with
  | nil => exact fun hsame => ⟨rfl, hsame⟩
  | cons c rest ih =>
      intro s s' hsame
      by_cases hkey : key c = some k
      · obtain ⟨hanswer, hnext⟩ := h.own hkey hsame
        obtain ⟨htrace, hfinal⟩ := ih hnext
        have hcalls : callsOf key k (c :: rest) = c :: callsOf key k rest :=
          List.filter_cons_of_pos (by simpa using hkey)
        rw [hcalls]
        refine ⟨?_, hfinal⟩
        rw [trace, List.filter_cons_of_pos (by simpa using hkey), htrace,
          trace, hanswer]
      · have hnext := (h.other s hkey).trans hsame
        obtain ⟨htrace, hfinal⟩ := ih hnext
        have hcalls : callsOf key k (c :: rest) = callsOf key k rest :=
          List.filter_cons_of_neg (by simpa using hkey)
        rw [hcalls]
        refine ⟨?_, hfinal⟩
        rw [trace, List.filter_cons_of_neg (by simpa using hkey), htrace]

end Keyed
