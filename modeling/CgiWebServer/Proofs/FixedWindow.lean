/-
What the fixed window's word accounts for.

# The two losses

The loop of `FixedWindowLimiter::process` goes round when its exchange
stores, so it is left by a failed exchange, and two things lose counts.
A request whose first exchange fails is admitted although it stored
nothing. A request whose window is older than the word's takes the other
branch and restarts the word in its own window, so the newer window's
count is gone.

# What holds without them

In a run where no step does either, the word accounts for every request
that has stored: its own window's count bounds that window's, a full
window bounds every older one's, and no newer window has any. `ceiling`
is that bound, a store raises it at the storer's window by one
(`ceiling_store`), and the invariant follows move by move.
-/
import CgiWebServer.Limiter.FixedWindowThreads

namespace CgiWebServer

namespace FixedWindow

open Interleave

-- ========================================================= the condition

/-- A step that loses no count: a request that has not stored yet stores
at its first exchange (no other request has changed the word since it
read it, and the exchange does not fail spuriously), and a request that
stores does not do so over a newer window. -/
def KeepsCounts (s : FixedWindowSetting) (sys : Sys UInt64 Thread)
    (x : Action Int Move) : Prop :=
  ∀ i spurious w old stored, x = .move i (.exchange spurious) →
    sys.threads[i]? = some ⟨w, .looping old stored⟩ →
    (stored = false → attempt s w old ≠ none →
      sys.shared = old ∧ spurious = false)
    ∧ (sys.shared = old → spurious = false → upper old ≤ w)

-- =========================================================== the ceiling

/-- How many requests of window `w` a word accounts for. -/
def ceiling (s : FixedWindowSetting) (word : UInt64) (w : UInt32) : Nat :=
  if w < upper word then s.maxRequests.toNat
  else if w = upper word then (lower word).toNat
  else 0

/-- The word accounts for the requests that have stored. -/
structure Accounted (s : FixedWindowSetting) (sys : Sys UInt64 Thread) :
    Prop where
  count_le : (lower sys.shared).toNat ≤ s.maxRequests.toNat
  counted_le : ∀ w,
    sys.threads.countP (countedIn w) ≤ ceiling s sys.shared w

/-- An arrival is counted nowhere. -/
theorem accounted_arrive {s : FixedWindowSetting}
    {sys : Sys UInt64 Thread} (secs : Int) (hinv : Accounted s sys) :
    Accounted s ⟨sys.shared, sys.threads ++ [(program s).start secs]⟩ := by
  refine ⟨hinv.count_le, fun w => ?_⟩
  have hfresh : countedIn w ((program s).start secs) = false := by
    simp [countedIn, program, Phase.counted]
  rw [count_arrive _ _ hfresh]
  exact hinv.counted_le w

/-- A move that changes neither the word nor what its thread counts for
keeps the accounts. -/
theorem accounted_quiet {s : FixedWindowSetting}
    {sys : Sys UInt64 Thread} {i : Nat} {t t' : Thread} (hinv : Accounted s sys)
    (ht : sys.threads[i]? = some t)
    (hcounted : ∀ w, (countedIn w t').toNat ≤ (countedIn w t).toNat) :
    Accounted s ⟨sys.shared, sys.threads.set i t'⟩ := by
  refine ⟨hinv.count_le, fun w => ?_⟩
  have hset := count_set (countedIn w) ht t'
  have hle := hinv.counted_le w
  have hc := hcounted w
  show (sys.threads.set i t').countP (countedIn w)
    ≤ ceiling s sys.shared w
  omega

section Store

variable {s : FixedWindowSetting}
variable (hpos : 1 ≤ s.maxRequests) (hint : s.maxRequests < 2147483648)
include hpos hint

/-- The setting's conversion is exact. -/
theorem toNat_maxRequests :
    (toU32 s.maxRequests).toNat = s.maxRequests.toNat :=
  toNat_toU32 (by omega) (by omega)

/-- A stored word is in the storer's window, and its count is the old
one's there plus one, or one over an older or newer window. -/
theorem attempt_some {w : UInt32} {old desired : UInt64}
    (hattempt : attempt s w old = some desired) :
    upper desired = w
      ∧ (lower desired).toNat ≤ s.maxRequests.toNat
      ∧ (lower desired).toNat
          = (if upper old = w then (lower old).toNat else 0) + 1 := by
  have hmax := toNat_maxRequests hpos hint
  rcases attempt_cases s w old with ⟨_, _, hthrow⟩ | ⟨hw, hlt, hsame⟩
    | ⟨hw, hreset⟩
  · exact absurd (hthrow.symm.trans hattempt) (by simp)
  · obtain rfl := Option.some.inj (hsame.symm.trans hattempt)
    have hlt' : (lower old).toNat < s.maxRequests.toNat :=
      hmax ▸ UInt32.lt_iff_toNat_lt.mp hlt
    have hsucc : (lower old + 1).toNat = (lower old).toNat + 1 := by
      rw [UInt32.toNat_add]
      exact Nat.mod_eq_of_lt (by
        rw [UInt32.toNat_one]
        omega)
    rw [upper_pack, lower_pack, hsucc, if_pos hw]
    exact ⟨rfl, by omega, rfl⟩
  · obtain rfl := Option.some.inj (hreset.symm.trans hattempt)
    rw [upper_pack, lower_pack, if_neg hw, UInt32.toNat_one]
    exact ⟨rfl, by omega, rfl⟩

/-- A store not over a newer window raises the ceiling at its own window
by at least one, and lowers it nowhere. -/
theorem ceiling_store {w : UInt32} {old desired : UInt64}
    (hattempt : attempt s w old = some desired) (hnewer : upper old ≤ w)
    (hcount : (lower old).toNat ≤ s.maxRequests.toNat) (v : UInt32) :
    ceiling s old v + (decide (v = w)).toNat ≤ ceiling s desired v := by
  obtain ⟨hupper, _, hlower⟩ := attempt_some hpos hint hattempt
  unfold ceiling
  rw [hupper]
  by_cases hvw : v = w
  · -- At the storer's window: the count moves up, or starts at one.
    subst hvw
    have hnlt : ¬ v < v := UInt32.lt_irrefl v
    have hnold : ¬ v < upper old := UInt32.not_lt.mpr hnewer
    rw [if_neg hnlt, if_pos rfl, if_neg hnold, hlower]
    by_cases hsame : v = upper old
    · rw [if_pos hsame, if_pos hsame.symm]
      simp
    · rw [if_neg hsame, if_neg (Ne.symm hsame)]
      simp
  · -- Elsewhere: an older window keeps its ceiling, the word's own one
    -- becomes an older window, and a newer one had none.
    simp only [hvw, decide_false, Bool.toNat_false, Nat.add_zero]
    by_cases hold : v < upper old
    · have hlt : v < w := UInt32.lt_of_lt_of_le hold hnewer
      rw [if_pos hold, if_pos hlt]
    · rw [if_neg hold]
      by_cases hown : v = upper old
      · have hlt : v < w :=
          UInt32.lt_of_le_of_ne (hown ▸ hnewer) hvw
        rw [if_pos hown, if_pos hlt]
        exact hcount
      · rw [if_neg hown]
        exact Nat.zero_le _

-- ============================================================= the moves

/-- A move of one thread keeps the accounts, where it loses no count. -/
theorem accounted_move {sys : Sys UInt64 Thread} {i : Nat} {a : Move}
    {t t' : Thread} {word' : UInt64} (hinv : Accounted s sys)
    (hkeeps : KeepsCounts s sys (.move i a))
    (ht : sys.threads[i]? = some t)
    (hstep : (program s).step a sys.shared t = some (word', t')) :
    Accounted s ⟨word', sys.threads.set i t'⟩ := by
  obtain ⟨w, phase⟩ := t
  cases a with
  | load =>
      cases phase with
      | fresh =>
          obtain ⟨rfl, rfl⟩ := Prod.mk.inj (Option.some.inj hstep)
          exact accounted_quiet hinv ht fun v => by
            simp [countedIn, Phase.counted]
      | looping old stored => exact absurd hstep (by simp [program, step])
      | admitted => exact absurd hstep (by simp [program, step])
      | rejected => exact absurd hstep (by simp [program, step])
  | exchange spurious =>
      cases phase with
      | fresh => exact absurd hstep (by simp [program, step])
      | admitted => exact absurd hstep (by simp [program, step])
      | rejected => exact absurd hstep (by simp [program, step])
      | looping old stored =>
          obtain ⟨hfirst, hnewer⟩ :=
            hkeeps i spurious w old stored rfl ht
          rcases step_exchange hstep with ⟨_, rfl, rfl⟩
            | ⟨_, hattempt, hword, hsound, rfl, rfl⟩
            | ⟨_, hattempt, hfailed, rfl, rfl⟩
          · -- The body threw: the thread counts for nothing now.
            exact accounted_quiet hinv ht fun v => by
              simp [countedIn, Phase.counted]
          · -- The exchange stored: the ceiling rises with the count.
            have hle : upper old ≤ w := hnewer hword hsound
            obtain ⟨_, hlower, _⟩ := attempt_some hpos hint hattempt
            refine ⟨hlower, fun v => ?_⟩
            have hset := count_set (countedIn v) ht
              ⟨w, .looping old true⟩
            have hcounted := hinv.counted_le v
            rw [hword] at hcounted
            have hraise := ceiling_store hpos hint hattempt hle
              (hword ▸ hinv.count_le) v
            have hnew : (countedIn v ⟨w, .looping old true⟩).toNat
                ≤ (decide (v = w)).toNat := by
              by_cases hvw : v = w
              · simp [countedIn, Phase.counted, hvw]
              · simp [countedIn, Ne.symm hvw]
            show (sys.threads.set i ⟨w, .looping old true⟩).countP
              (countedIn v) ≤ ceiling s word' v
            omega
          · -- The exchange failed: the thread had stored before.
            cases stored with
            | false =>
                have hstores := hfirst rfl (by rw [hattempt]; simp)
                exact absurd hstores hfailed
            | true =>
                exact accounted_quiet hinv ht fun v => by
                  simp [countedIn, Phase.counted]

-- ======================================================== over whole runs

/-- In a run whose steps lose no count, the word accounts for the
requests in every system reached. -/
theorem accounted_of_reach {sys : Sys UInt64 Thread}
    (hrun : (program s).Reach (KeepsCounts s) 0 sys) : Accounted s sys := by
  refine hrun.invariant ?_ ?_ ?_
  · exact ⟨Nat.zero_le _, fun w => Nat.zero_le _⟩
  · intro sys secs hinv _
    exact accounted_arrive secs hinv
  · intro sys i a t word' t' hinv hkeeps ht hstep
    exact accounted_move hpos hint hinv hkeeps ht hstep

/-- In a run whose steps lose no count, the word accounts for every
request that has stored or is admitted, and no window admits more than
`max_requests`. -/
theorem admitted_le_maxRequests {sys : Sys UInt64 Thread}
    (hrun : (program s).Reach (KeepsCounts s) 0 sys) :
    Accounted s sys
      ∧ ∀ w, (sys.threads.countP (admittedIn w) : Int) ≤ s.maxRequests := by
  have hinv := accounted_of_reach hpos hint hrun
  refine ⟨hinv, fun w => ?_⟩
  have hmono : sys.threads.countP (admittedIn w)
      ≤ sys.threads.countP (countedIn w) := by
    refine List.countP_mono_left fun t _ ht => ?_
    simp only [admittedIn, decide_eq_true_eq] at ht
    simp [countedIn, ht.1, ht.2, Phase.counted]
  have hceiling : ceiling s sys.shared w ≤ s.maxRequests.toNat := by
    unfold ceiling
    split
    · exact Nat.le_refl _
    · split
      · exact hinv.count_le
      · exact Nat.zero_le _
  have hcounted := hinv.counted_le w
  omega

end Store

section Steps

variable {s : FixedWindowSetting} {sys : Sys UInt64 Thread}

/-- What is no exchange keeps the counts. -/
theorem keepsCounts_arrive (secs : Int) :
    KeepsCounts s sys (.arrive secs) :=
  fun _ _ _ _ _ hx => nomatch hx

theorem keepsCounts_load (i : Nat) : KeepsCounts s sys (.move i .load) :=
  fun _ _ _ _ _ hx => nomatch hx

/-- An exchange keeps them by what its request has read. -/
theorem keepsCounts_exchange {i : Nat} {spurious stored : Bool}
    {w : UInt32} {old : UInt64}
    (ht : sys.threads[i]? = some ⟨w, .looping old stored⟩)
    (hstores : stored = false → attempt s w old ≠ none →
      sys.shared = old ∧ spurious = false)
    (hnewer : sys.shared = old → spurious = false → upper old ≤ w) :
    KeepsCounts s sys (.move i (.exchange spurious)) := by
  intro j spurious' w' old' stored' hx ht'
  cases hx
  cases ht.symm.trans ht'
  exact ⟨hstores, hnewer⟩

end Steps

/-- Two requests of a window that overlap: the second loads and stores
before the first, which has stored, leaves the loop. -/
theorem admitted_le_maxRequests_overlap :
    ∃ sys, (program { windowSeconds := 60, maxRequests := 2 }).Reach
        (KeepsCounts { windowSeconds := 60, maxRequests := 2 }) 0 sys
      ∧ sys.threads = [⟨1, .admitted⟩, ⟨1, .admitted⟩]
      ∧ sys.threads.countP (countedIn 1) ≤ (lower sys.shared).toNat
      ∧ (sys.threads.countP (admittedIn 1) : Int) ≤ 2 := by
  let s : FixedWindowSetting := { windowSeconds := 60, maxRequests := 2 }
  have hloaded : (program s).Reach (KeepsCounts s) 0
      ⟨0, [⟨1, .looping 0 false⟩, ⟨1, .fresh⟩]⟩ :=
    ((Program.Reach.start.step (keepsCounts_arrive 60) rfl).step
      (keepsCounts_arrive 60) rfl).step (keepsCounts_load 0) rfl
  -- An exchange that stores goes round here, and one that fails leaves: the
  -- first request has written its count and is still in the loop.
  have hstored : (program s).Reach (KeepsCounts s) 0
      ⟨4294967297, [⟨1, .looping 0 true⟩, ⟨1, .fresh⟩]⟩ :=
    hloaded.step (x := .move 0 (.exchange false))
      (keepsCounts_exchange rfl (by decide) (by decide)) (by decide)
  have hboth : (program s).Reach (KeepsCounts s) 0
      ⟨4294967298,
        [⟨1, .looping 0 true⟩, ⟨1, .looping 4294967297 true⟩]⟩ :=
    (hstored.step (keepsCounts_load 1) rfl).step
      (x := .move 1 (.exchange false))
      (keepsCounts_exchange rfl (by decide) (by decide)) (by decide)
  have hfirst : (program s).Reach (KeepsCounts s) 0
      ⟨4294967298, [⟨1, .admitted⟩, ⟨1, .looping 4294967297 true⟩]⟩ :=
    hboth.step (x := .move 0 (.exchange false))
      (keepsCounts_exchange rfl (by decide) (by decide)) (by decide)
  -- Both requests leave by a failed exchange, and the word holds both
  -- counts.
  have hend : (program s).Reach (KeepsCounts s) 0
      ⟨4294967298, [⟨1, .admitted⟩, ⟨1, .admitted⟩]⟩ :=
    hfirst.step (x := .move 1 (.exchange false))
      (keepsCounts_exchange rfl (by decide) (by decide)) (by decide)
  obtain ⟨haccounted, hadmitted⟩ :=
    admitted_le_maxRequests (s := s) (by decide) (by decide) hend
  exact ⟨_, hend, rfl, haccounted.counted_le 1, hadmitted 1⟩

/-- Two requests load the empty word of a setting that allows one. The
first stores, the exchange of the second fails and so it is admitted,
and then the first's second exchange fails and it is admitted too. -/
theorem two_admitted_where_one_allowed :
    ¬ ∀ s : FixedWindowSetting, 1 ≤ s.maxRequests →
      s.maxRequests < 2147483648 → 1 ≤ s.windowSeconds →
      ∀ sys, (program s).Reach (fun _ _ => True) 0 sys → ∀ w,
        (sys.threads.countP (admittedIn w) : Int) ≤ s.maxRequests := by
  intro hclaim
  let s : FixedWindowSetting := { windowSeconds := 60, maxRequests := 1 }
  have hrun : (program s).run
      [.arrive 60, .arrive 60, .move 0 .load, .move 1 .load,
        .move 0 (.exchange false), .move 1 (.exchange false),
        .move 0 (.exchange false)] ⟨0, []⟩
      = some ⟨4294967297, [⟨1, .admitted⟩, ⟨1, .admitted⟩]⟩ := by
    decide
  have hreach := Program.Reach.start.run hrun
  have hbound := hclaim s (by decide) (by decide) (by decide) _ hreach 1
  exact absurd hbound (by decide)

end FixedWindow

end CgiWebServer
