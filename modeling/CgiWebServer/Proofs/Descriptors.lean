/-
Which closes of a script run are on its own descriptors.

# The destructor

`~ScriptStreamer` closes all four numbers, whether the run has closed
them before or never had them. A run that streams has closed each of
them, so all four closes of its destructor are on numbers that belong to
nobody, or by then to another session. Only a run that `spawnProcess`
ends still has all four. One whose second pipe fails has the first two,
and closes two numbers that were never written behind them.

# The books

`Phase.held` is what a run owns at each place. As long as every
destructor has kept to what was its own (`Thread.Tidy`), every thread's
books are right (`Good`): a step changes its own thread's, and the others'
stay, since names are unique. A destructor that goes one further closes a
number it does not own, and leaves both on record (`Spoiled`).
-/
import CgiWebServer.Net.Descriptors

namespace CgiWebServer

namespace Descriptors

open Interleave

-- ============================================================= the books

/-- What a run has left that came to its destructor. -/
def Exit.left (p : Pipes) : Exit → List Int
  | .stdinPipe => []
  | .stdoutPipe => [p.stdin0, p.stdin1]
  | .launch => p.all
  | .write => [p.stdin1, p.stdout0]
  | .attach => [p.stdout0]
  | .streamed => []

/-- How many of the destructor's closes are on the run's own numbers. -/
def Exit.ownCloses : Exit → Nat
  | .stdoutPipe => 2
  | .launch => 4
  | _ => 0

/-- What a run owns, the next it closes first. -/
def Phase.held (p : Pipes) : Phase → List Int
  | .constructed => []
  | .stdinMade => [p.stdin0, p.stdin1]
  | .piped => p.all
  | .launched => [p.stdin0, p.stdout1, p.stdin1, p.stdout0]
  | .stdin0Closed => [p.stdout1, p.stdin1, p.stdout0]
  | .spawned | .written => [p.stdin1, p.stdout0]
  | .stdin1Closed | .reading => [p.stdout0]
  | .destructor exit closed => (exit.left p).drop closed

/-- No destructor has gone beyond what was the run's own. -/
def Phase.Tidy : Phase → Prop
  | .destructor exit closed => closed ≤ exit.ownCloses
  | _ => True

def Thread.Tidy : Thread → Prop
  | .script _ _ phase => phase.Tidy
  | _ => True

/-- Once both pipes are made, their numbers are four. -/
def Phase.Apart (p : Pipes) : Phase → Prop
  | .constructed | .stdinMade | .destructor .stdinPipe _
  | .destructor .stdoutPipe _ => True
  | _ => p.all.Nodup

/-- The thread with a name. -/
def named (id : Nat) : Thread → Bool
  | .script i _ _ => i = id
  | .session i _ => i = id
  | .arriving _ => false

/-- What a thread takes itself to own. -/
def Thread.held : Thread → List Int
  | .script _ p phase => phase.held p
  | .session _ held => held
  | .arriving _ => []

/-- A thread's books are right, and it is tidy. -/
structure Good (table : Handles.Table Int Nat) (t : Thread) : Prop where
  holds : ∀ id, named id t = true → Handles.Holds table id t.held
  tidy : t.Tidy
  apart : ∀ id p phase, t = .script id p phase → phase.Apart p

structure Inv (s : Process) (threads : List Thread) : Prop where
  names : ∀ id, threads.countP (named id) = if id < s.next then 1 else 0
  owners : ∀ n id, s.table.owner n = some id → id < s.next
  good : ∀ t ∈ threads, Good s.table t
  closes : ∀ c ∈ s.closes, c.owner = some c.streamer

/-- A close was on a number its run did not own, and some run's
destructor has gone too far. -/
structure Spoiled (s : Process) (threads : List Thread) : Prop where
  close : ∃ c ∈ s.closes, c.owner ≠ some c.streamer
  untidy : ∃ t ∈ threads, ¬ t.Tidy

-- ========================================================== single phases

/-- A turn changes the order of the books at most, and is tidy. -/
theorem Phase.Turns.books {phase phase' : Phase} (h : phase.Turns phase')
    (p : Pipes) (hapart : phase.Apart p) :
    (phase.held p).Perm (phase'.held p) ∧ phase'.Tidy
      ∧ phase'.Apart p := by
  cases h with
  | stdinFails => exact ⟨List.Perm.refl _, Nat.le_refl 0, trivial⟩
  | stdoutFails => exact ⟨List.Perm.refl _, Nat.zero_le 2, trivial⟩
  | launches =>
      refine ⟨?_, trivial, hapart⟩
      exact (@List.perm_append_comm _ [p.stdin1, p.stdout0]
        [p.stdout1]).cons p.stdin0
  | launchFails => exact ⟨List.Perm.refl _, Nat.zero_le 4, hapart⟩
  | writes => exact ⟨List.Perm.refl _, trivial, hapart⟩
  | writeFails => exact ⟨List.Perm.refl _, Nat.le_refl 0, hapart⟩
  | attaches => exact ⟨List.Perm.refl _, trivial, hapart⟩
  | attachFails => exact ⟨List.Perm.refl _, Nat.le_refl 0, hapart⟩
  | reads => exact ⟨List.Perm.refl _, trivial, hapart⟩

/-- A pipe's numbers join the books. -/
theorem Phase.Makes.books {p p' : Pipes} {a b : Int}
    {phase phase' : Phase} (h : phase.Makes p a b p' phase') :
    (b :: a :: phase.held p).Perm (phase'.held p') ∧ phase'.Tidy
      ∧ (phase'.held p' |>.Nodup → phase'.Apart p') := by
  cases h with
  | stdin => exact ⟨List.Perm.swap .., trivial, fun _ => trivial⟩
  | stdout =>
      refine ⟨?_, trivial, fun h => h⟩
      exact (List.Perm.swap a b _).trans
        (@List.perm_append_comm _ [a, b] [p.stdin0, p.stdin1])

/-- The next close of a tidy run: of the first number in its books, and
the run stays tidy, or of a number that is not there, and it does not. -/
theorem Phase.nextClose_books {p : Pipes} {phase phase' : Phase} {n : Int}
    (h : phase.nextClose p = some (n, phase')) (htidy : phase.Tidy)
    (hapart : phase.Apart p) :
    (phase.held p = n :: phase'.held p ∧ phase'.Tidy ∧ phase'.Apart p)
      ∨ (n ∉ phase.held p ∧ ¬ phase'.Tidy) := by
  cases phase with
  | constructed => cases h
  | stdinMade => cases h
  | piped => cases h
  | spawned => cases h
  | stdin1Closed => cases h
  | launched =>
      cases h
      exact Or.inl ⟨rfl, trivial, hapart⟩
  | stdin0Closed =>
      cases h
      exact Or.inl ⟨rfl, trivial, hapart⟩
  | written =>
      cases h
      exact Or.inl ⟨rfl, trivial, hapart⟩
  | reading =>
      cases h
      exact Or.inl ⟨rfl, Nat.le_refl 0, hapart⟩
  -- The destructor closes four numbers, whatever the run has closed by
  -- then; the books are kept as far as the numbers are its own.
  | destructor exit closed =>
      obtain ⟨x, hx, hout⟩ := Option.map_eq_some_iff.mp h
      cases hout
      have hle : closed ≤ exit.ownCloses := htidy
      cases exit with
      | launch =>
          obtain ⟨hlt, rfl⟩ := List.getElem?_eq_some_iff.mp hx
          refine Or.inl ⟨List.drop_eq_getElem_cons hlt, ?_, hapart⟩
          show closed + 1 ≤ 4
          exact hlt
      | stdoutPipe =>
          by_cases hlast : closed = 2
          · subst hlast
            exact Or.inr ⟨List.not_mem_nil, Nat.not_succ_le_self 2⟩
          · have hlt : closed < 2 := Nat.lt_of_le_of_ne hle hlast
            obtain ⟨hall, rfl⟩ := List.getElem?_eq_some_iff.mp hx
            exact Or.inl ⟨List.drop_eq_getElem_cons (l := [p.stdin0,
              p.stdin1]) hlt |>.trans (by
                rcases closed with _ | _ | k
                · rfl
                · rfl
                · omega), hlt, trivial⟩
      | stdinPipe =>
          obtain rfl := Nat.le_zero.mp hle
          exact Or.inr ⟨List.not_mem_nil, Nat.not_succ_le_zero 0⟩
      | streamed =>
          obtain rfl := Nat.le_zero.mp hle
          exact Or.inr ⟨List.not_mem_nil, Nat.not_succ_le_zero 0⟩
      | write =>
          obtain rfl := Nat.le_zero.mp hle
          cases hx
          refine Or.inr ⟨fun hmem => ?_, Nat.not_succ_le_zero 0⟩
          have hnot := (List.nodup_cons.mp hapart).1
          rcases List.mem_cons.mp hmem with heq | hmem
          · exact hnot (heq ▸ List.mem_cons_self)
          · rw [List.mem_singleton.mp hmem] at hnot
            exact hnot (List.mem_cons_of_mem _ List.mem_cons_self)
      | attach =>
          obtain rfl := Nat.le_zero.mp hle
          cases hx
          refine Or.inr ⟨fun hmem => ?_, Nat.not_succ_le_zero 0⟩
          have hnot := (List.nodup_cons.mp hapart).1
          rw [List.mem_singleton.mp hmem] at hnot
          exact hnot (List.mem_cons_of_mem _ List.mem_cons_self)

-- ============================================================== the moves

theorem inv_start : Inv {} [] where
  names := fun _ => rfl
  owners := fun _ _ howner => absurd howner (by simp)
  good := fun _ ht => absurd ht List.not_mem_nil
  closes := fun _ hc => absurd hc List.not_mem_nil

section Moves

variable {s s' : Process} {threads : List Thread} {i : Nat} {t t' : Thread}

theorem inv_arrive (h : Inv s threads) (caller : Caller) :
    Inv s (threads ++ [.arriving caller]) := by
  refine ⟨fun id => ?_, h.owners, ?_, h.closes⟩
  · rw [count_arrive _ _ rfl]
    exact h.names id
  · refine forall_arrive h.good ⟨?_, trivial, ?_⟩
    · exact fun _ hid => absurd hid (by simp [named])
    · exact fun _ _ _ heq => absurd heq (by simp)

/-- A named thread's name has been given out. -/
theorem Inv.lt_next (h : Inv s threads) (ht : threads[i]? = some t)
    {id : Nat} (hid : named id t = true) : id < s.next := by
  have hpos := List.countP_pos_iff.mpr ⟨t, List.mem_of_getElem? ht, hid⟩
  have hnames := h.names id
  by_contra hge
  rw [if_neg hge] at hnames
  omega

/-- A thread gets a name nobody has, and owns nothing. -/
theorem inv_begin (h : Inv s threads) {caller : Caller}
    (ht : threads[i]? = some (.arriving caller)) :
    Inv { s with next := s.next + 1 }
      (threads.set i (caller.begin s.next)) := by
  -- The thread begins with the next identity and no number.
  have hnamed : ∀ id, named id (caller.begin s.next)
      = decide (s.next = id) := by
    intro id
    cases caller <;> rfl
  have hheld : (caller.begin s.next).held = [] := by
    cases caller <;> rfl
  refine ⟨fun id => ?_, fun n id howner => ?_, ?_, h.closes⟩
  · have hset := count_set (named id) ht (caller.begin s.next)
    have hnames := h.names id
    rw [hnamed id] at hset
    simp only [named, Bool.toNat_false] at hset
    show (threads.set i _).countP (named id)
      = if id < s.next + 1 then 1 else 0
    by_cases heq : s.next = id
    · subst heq
      rw [decide_eq_true rfl, Bool.toNat_true] at hset
      rw [if_neg (Nat.lt_irrefl _)] at hnames
      rw [if_pos (Nat.lt_succ_self _)]
      omega
    · rw [decide_eq_false heq, Bool.toNat_false] at hset
      by_cases hlt : id < s.next
      · rw [if_pos hlt] at hnames
        rw [if_pos (by omega)]
        omega
      · rw [if_neg hlt] at hnames
        rw [if_neg (by omega)]
        omega
  · exact Nat.lt_succ_of_lt (h.owners n id howner)
  · apply forall_set h.good
    refine ⟨fun id hid => ?_, ?_, ?_⟩
    · rw [hnamed id] at hid
      obtain rfl := of_decide_eq_true hid
      rw [hheld]
      refine ⟨List.nodup_nil, fun n => ?_⟩
      refine ⟨fun howner => ?_, fun hmem => absurd hmem List.not_mem_nil⟩
      exact absurd (h.owners n _ howner) (Nat.lt_irrefl _)
    · cases caller <;> exact trivial
    · intro id p phase heq
      cases caller with
      | script memory =>
          cases heq
          exact trivial
      | session => cases heq

/-- A move of a named thread that keeps its name and changes no other
thread's books. -/
theorem inv_move (h : Inv s threads) (ht : threads[i]? = some t) {id : Nat}
    (hid : named id t = true) (hsame : ∀ j, named j t' = named j t)
    (hnext : s'.next = s.next)
    (howners : ∀ n j, s'.table.owner n = some j →
      j = id ∨ s.table.owner n = some j)
    (hother : ∀ j held, j ≠ id → Handles.Holds s.table j held →
      Handles.Holds s'.table j held)
    (hgood : Good s'.table t')
    (hcloses : ∀ c ∈ s'.closes, c.owner = some c.streamer) :
    Inv s' (threads.set i t') := by
  refine ⟨fun j => ?_, fun n j howner => ?_, ?_, hcloses⟩
  · have hset := count_set (named j) ht t'
    rw [hsame j] at hset
    rw [hnext, ← h.names j]
    omega
  · rw [hnext]
    rcases howners n j howner with rfl | hold
    · exact h.lt_next ht hid
    · exact h.owners n j hold
  · refine forall_set_others (fun j u hji hu => ?_) hgood
    have hold := h.good u (List.mem_of_getElem? hu)
    refine ⟨fun k hk => hother k _ ?_ (hold.holds k hk), hold.tidy,
      hold.apart⟩
    rintro rfl
    have hone : threads.countP (named k) ≤ 1 := by
      rw [h.names k]
      split <;> omega
    exact hji (counted_once (named k) hone hu ht hk hid)

theorem isFree_iff {n : Int} (hfree : s.isFree n = true) :
    s.table.owner n = none := (of_decide_eq_true hfree).2

theorem take_owner {n m : Int} {id j : Nat}
    (howner : (s.take n id).table.owner m = some j) :
    j = id ∨ s.table.owner m = some j := by
  by_cases hm : m = n
  · subst hm
    rw [Process.take, Handles.Table.owner_take_self] at howner
    exact Or.inl (Option.some.inj howner).symm
  · rw [Process.take, Handles.Table.owner_take_other id hm] at howner
    exact Or.inr howner

theorem free_owner {n m : Int} {j : Nat}
    (howner : (s.free n).table.owner m = some j) :
    s.table.owner m = some j := by
  by_cases hm : m = n
  · subst hm
    rw [Process.free, Handles.Table.owner_free_self] at howner
    exact absurd howner (by simp)
  · rwa [Process.free, Handles.Table.owner_free_other hm] at howner

theorem inv_makes (h : Inv s threads) {id : Nat} {p p' : Pipes}
    {phase phase' : Phase} {a b : Int}
    (ht : threads[i]? = some (.script id p phase))
    (hmakes : phase.Makes p a b p' phase') (ha : s.isFree a = true)
    (hb : s.isFree b = true) (hab : a ≠ b) :
    Inv ((s.take a id).take b id)
      (threads.set i (.script id p' phase')) := by
  have hb' : (s.take a id).table.owner b = none := by
    rw [Process.take, Handles.Table.owner_take_other id (Ne.symm hab)]
    exact isFree_iff hb
  have hown : named id (.script id p phase) = true := decide_eq_true rfl
  have hgood := h.good _ (List.mem_of_getElem? ht)
  obtain ⟨hperm, htidy, hapart⟩ := hmakes.books
  have hbooks := (((hgood.holds id hown).take (isFree_iff ha)).take
    hb').perm hperm
  refine inv_move h ht hown (fun _ => rfl) rfl ?_ ?_ ⟨?_, htidy, ?_⟩
    h.closes
  · intro n j howner
    rcases take_owner howner with hid | hold
    · exact Or.inl hid
    · exact take_owner hold
  · intro j held hj hholds
    exact (hholds.take_other (isFree_iff ha) hj).take_other hb' hj
  · intro j hj
    obtain rfl : id = j := of_decide_eq_true hj
    exact hbooks
  · intro j q ph heq
    cases heq
    exact hapart hbooks.nodup

theorem inv_turns (h : Inv s threads) {id : Nat} {p : Pipes}
    {phase phase' : Phase}
    (ht : threads[i]? = some (.script id p phase))
    (hturns : phase.Turns phase') :
    Inv s (threads.set i (.script id p phase')) := by
  have hown : named id (.script id p phase) = true := decide_eq_true rfl
  have hgood := h.good _ (List.mem_of_getElem? ht)
  obtain ⟨hperm, htidy, hapart⟩ :=
    hturns.books p (hgood.apart id p phase rfl)
  refine inv_move h ht hown (fun _ => rfl) rfl (fun _ _ => Or.inr)
    (fun _ _ _ hholds => hholds) ⟨?_, htidy, ?_⟩ h.closes
  · intro j hj
    exact (hgood.holds j hj).perm hperm
  · intro j q ph heq
    cases heq
    exact hapart

/-- Whoever owns a number gives back one of its own. -/
theorem inv_free (h : Inv s threads) {id : Nat} {n : Int} {rest : List Int}
    (ht : threads[i]? = some t) (hid : named id t = true)
    (hheld : t.held.Perm (n :: rest))
    (hsame : ∀ j, named j t' = named j t) (hrest : t'.held = rest)
    (htidy : t'.Tidy)
    (hapart : ∀ id p phase, t' = .script id p phase → phase.Apart p)
    (hnext : s'.next = s.next) (htable : s'.table = s.table.free n)
    (hcloses : ∀ c ∈ s'.closes, c.owner = some c.streamer) :
    Inv s' (threads.set i t') := by
  have hgood := h.good _ (List.mem_of_getElem? ht)
  have hbooks := (hgood.holds id hid).perm hheld
  have howner := (hbooks.owner n).mpr List.mem_cons_self
  refine inv_move h ht hid hsame hnext ?_ ?_ ⟨?_, htidy, hapart⟩ hcloses
  · intro m j hm
    rw [htable] at hm
    exact Or.inr (free_owner (s := s) hm)
  · intro j held hj hholds
    rw [htable]
    exact hholds.free_other howner hj
  · intro j hj
    rw [hsame j] at hj
    have hone : j = id := by
      cases t with
      | arriving _ => exact absurd hj (by simp [named])
      | script k q ph =>
          exact (of_decide_eq_true hj).symm.trans (of_decide_eq_true hid)
      | session k held =>
          exact (of_decide_eq_true hj).symm.trans (of_decide_eq_true hid)
    rw [htable, hrest, hone]
    exact hbooks.free

/-- A close of a script run, by whether its place in the code is still
one of its own. -/
theorem inv_or_spoiled_close (h : Inv s threads) {id : Nat} {p : Pipes}
    {phase phase' : Phase} {n : Int}
    (ht : threads[i]? = some (.script id p phase))
    (hclose : phase.nextClose p = some (n, phase')) :
    Inv (s.close n id) (threads.set i (.script id p phase'))
      ∨ Spoiled (s.close n id) (threads.set i (.script id p phase')) := by
  have hown : named id (.script id p phase) = true := decide_eq_true rfl
  have hgood := h.good _ (List.mem_of_getElem? ht)
  have hbooks := hgood.holds id hown
  rcases phase.nextClose_books hclose hgood.tidy
    (hgood.apart id p phase rfl) with ⟨hheld, htidy, hapart⟩ | ⟨hnot, hun⟩
  · left
    have howner : s.table.owner n = some id := by
      refine (hbooks.owner n).mpr ?_
      show n ∈ phase.held p
      rw [hheld]
      exact List.mem_cons_self
    refine inv_free h ht hown (List.Perm.of_eq hheld) (fun _ => rfl) rfl
      htidy ?_ rfl rfl ?_
    · intro j q ph heq
      cases heq
      exact hapart
    · refine List.forall_mem_append.mpr ⟨h.closes, ?_⟩
      exact List.forall_mem_singleton.mpr howner
  · right
    obtain ⟨hi, -⟩ := List.getElem?_eq_some_iff.mp ht
    refine ⟨⟨_, List.mem_append_right _ List.mem_cons_self, ?_⟩,
      ⟨_, List.mem_set hi _, hun⟩⟩
    exact fun howner => hnot ((hbooks.owner n).mp howner)

/-- One move of one thread. -/
theorem inv_or_spoiled_move {m : Move} (h : Inv s threads)
    (ht : threads[i]? = some t) (hstep : step m s t = some (s', t')) :
    Inv s' (threads.set i t') ∨ Spoiled s' (threads.set i t') := by
  cases threadStep_of hstep with
  | begins => exact Or.inl (inv_begin h ht)
  | makes hmakes ha hb hab => exact Or.inl (inv_makes h ht hmakes ha hb hab)
  | turns hturns => exact Or.inl (inv_turns h ht hturns)
  | closes hclose => exact inv_or_spoiled_close h ht hclose
  | @opens id held n hfree =>
      have hown : named id (.session id held) = true := decide_eq_true rfl
      have hgood := h.good _ (List.mem_of_getElem? ht)
      refine Or.inl (inv_move h ht hown (fun _ => rfl) rfl
        (fun _ _ => take_owner) ?_ ⟨?_, trivial, fun _ _ _ => nofun⟩ h.closes)
      · intro j held hj hholds
        exact hholds.take_other (isFree_iff hfree) hj
      · intro j hj
        obtain rfl : id = j := of_decide_eq_true hj
        exact (hgood.holds id hown).take (isFree_iff hfree)
  | frees hmem =>
      exact Or.inl (inv_free h ht (decide_eq_true rfl)
        (List.perm_cons_erase hmem) (fun _ => rfl) rfl trivial
        (fun _ _ _ => nofun) rfl rfl h.closes)

end Moves

-- =============================================================== the runs

/-- No step takes a close off the record. -/
theorem step_closes {m : Move} {s s' : Process} {t t' : Thread}
    (hstep : step m s t = some (s', t')) :
    ∃ more, s'.closes = s.closes ++ more := by
  cases threadStep_of hstep with
  | begins => exact ⟨[], (List.append_nil _).symm⟩
  | makes => exact ⟨[], (List.append_nil _).symm⟩
  | turns => exact ⟨[], (List.append_nil _).symm⟩
  | closes => exact ⟨_, rfl⟩
  | opens => exact ⟨[], (List.append_nil _).symm⟩
  | frees => exact ⟨[], (List.append_nil _).symm⟩

/-- A run that is not tidy never is again. -/
theorem untidy_step {m : Move} {s s' : Process} {t t' : Thread}
    (hstep : step m s t = some (s', t')) (huntidy : ¬ t.Tidy) :
    ¬ t'.Tidy := by
  cases threadStep_of hstep with
  | begins => exact absurd trivial huntidy
  | makes hmakes => cases hmakes <;> exact absurd trivial huntidy
  | turns hturns => cases hturns <;> exact absurd trivial huntidy
  | @closes _ _ phase _ _ hclose =>
      -- Only the destructor's count can leave a run untidy, and it grows.
      cases phase with
      | destructor exit closed =>
          obtain ⟨x, -, hout⟩ := Option.map_eq_some_iff.mp hclose
          cases hout
          exact fun htidy => huntidy (Nat.le_of_succ_le htidy)
      | _ => exact absurd trivial huntidy
  | opens => exact absurd trivial huntidy
  | frees => exact absurd trivial huntidy

/-- A system's books are right, or it is spoiled. -/
def InvOrSpoiled (sys : Sys Process Thread) : Prop :=
  Inv sys.shared sys.threads ∨ Spoiled sys.shared sys.threads

theorem spoiled_move {m : Move} {s s' : Process} {threads : List Thread}
    {i : Nat} {t t' : Thread} (h : Spoiled s threads)
    (ht : threads[i]? = some t) (hstep : step m s t = some (s', t')) :
    Spoiled s' (threads.set i t') := by
  obtain ⟨⟨c, hc, hbad⟩, ⟨u, hu, huntidy⟩⟩ := h
  obtain ⟨more, hmore⟩ := step_closes hstep
  refine ⟨⟨c, hmore ▸ List.mem_append_left _ hc, hbad⟩, ?_⟩
  obtain ⟨hi, -⟩ := List.getElem?_eq_some_iff.mp ht
  obtain ⟨j, hj⟩ := List.mem_iff_getElem?.mp hu
  by_cases hji : j = i
  · subst hji
    obtain rfl := Option.some.inj (hj.symm.trans ht)
    exact ⟨t', List.mem_set hi _, untidy_step hstep huntidy⟩
  · refine ⟨u, List.mem_of_getElem? (i := j) ?_, huntidy⟩
    rw [List.getElem?_set_ne (Ne.symm hji)]
    exact hj

theorem inv_or_spoiled {sys : Sys Process Thread}
    (hreach : program.Reach (fun _ _ => True) {} sys) :
    InvOrSpoiled sys := by
  refine hreach.invariant ?_ ?_ ?_
  · exact Or.inl inv_start
  · intro s caller hinv _
    cases hinv with
    | inl h => exact Or.inl (inv_arrive h caller)
    | inr h =>
        obtain ⟨t, ht, huntidy⟩ := h.untidy
        exact Or.inr ⟨h.close, t, List.mem_append_left _ ht, huntidy⟩
  · intro s i m t s' t' hinv _ ht hstep
    cases hinv with
    | inl h => exact inv_or_spoiled_move h ht hstep
    | inr h => exact Or.inr (spoiled_move h ht hstep)

/-- Every close of every script run has been on a descriptor of its own
exactly where every destructor has kept to what its run had left: all of
them where `spawnProcess` threw, two where the second pipe failed, and
none otherwise. -/
theorem closes_owned_iff {sys : Sys Process Thread}
    (hreach : program.Reach (fun _ _ => True) {} sys) :
    (∀ c ∈ sys.shared.closes, c.owner = some c.streamer)
      ↔ ∀ id p exit closed,
        .script id p (.destructor exit closed) ∈ sys.threads →
          closed ≤ exit.ownCloses := by
  cases inv_or_spoiled hreach with
  | inl h =>
      refine ⟨fun _ id p exit closed ht => ?_, fun _ => h.closes⟩
      exact (h.good _ ht).tidy
  | inr h =>
      obtain ⟨c, hc, hbad⟩ := h.close
      obtain ⟨t, ht, huntidy⟩ := h.untidy
      refine ⟨fun hall => absurd (hall c hc) hbad, fun hall => ?_⟩
      cases t with
      | script id p phase =>
          cases phase with
          | destructor exit closed =>
              exact absurd (hall id p exit closed ht) huntidy
          | _ => exact absurd trivial huntidy
      | _ => exact absurd trivial huntidy

/-- A script that runs to the end of its output, and a session that is
given one of its numbers before the destructor closes it again. -/
def numberReused : List (Action Caller Move) :=
  [.arrive (.script ⟨0, 0, 0, 0⟩), .arrive .session, .move 0 .begin,
    .move 1 .begin, .move 0 (.pipe (some (3, 4))),
    .move 0 (.pipe (some (5, 6))), .move 0 (.launch true), .move 0 .close,
    .move 0 .close, .move 0 (.write true), .move 0 .close,
    .move 0 (.attach true), .move 0 .close, .move 1 (.sessionOpen 3),
    .move 0 .close]

/-- The destructor closes the session's descriptor. -/
theorem session_descriptor_closed :
    ∃ sys, program.Reach (fun _ _ => True) {} sys
      ∧ ⟨0, 3, some 1⟩ ∈ sys.shared.closes
      ∧ ¬ ∀ c ∈ sys.shared.closes, c.owner = some c.streamer := by
  obtain ⟨sys, hrun, hmem⟩ : ∃ sys, program.run numberReused ⟨{}, []⟩
      = some sys ∧ (⟨0, 3, some 1⟩ : Closed) ∈ sys.shared.closes :=
    ⟨_, rfl, by decide⟩
  refine ⟨sys, Program.Reach.start.run hrun, hmem, fun hall => ?_⟩
  exact absurd (hall _ hmem) (by decide)

/-- A script that cannot be launched: the destructor's four closes are
its own. -/
theorem closes_owned_unlaunched :
    ∃ sys, program.Reach (fun _ _ => True) {} sys
      ∧ sys.shared.closes.length = 4
      ∧ ∀ c ∈ sys.shared.closes, c.owner = some c.streamer := by
  obtain ⟨sys, hrun, hlength, hthreads⟩ : ∃ sys, program.run
      [.arrive (.script ⟨0, 0, 0, 0⟩), .move 0 .begin,
        .move 0 (.pipe (some (3, 4))), .move 0 (.pipe (some (5, 6))),
        .move 0 (.launch false), .move 0 .close, .move 0 .close,
        .move 0 .close, .move 0 .close] ⟨{}, []⟩ = some sys
      ∧ sys.shared.closes.length = 4
      ∧ sys.threads
        = [.script 0 ⟨3, 4, 5, 6⟩ (.destructor .launch 4)] :=
    ⟨_, rfl, rfl, rfl⟩
  have hreach := Program.Reach.start.run hrun
  refine ⟨sys, hreach, hlength, (closes_owned_iff hreach).mpr ?_⟩
  intro id p exit closed ht
  rw [hthreads] at ht
  cases List.mem_singleton.mp ht
  exact Nat.le_refl 4

end Descriptors

end CgiWebServer
