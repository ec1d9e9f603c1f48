/-
Fixed window, one request after the other: the first `max_requests`
requests of a key in a window are admitted, and no other.

The loop repeats on success, so an admission runs a second turn; without
another request its exchange expects the word that was there before the
first one, fails, and ends the loop (`loopAlone_onSuccess`).

The invariant (`reads_of_sequence`) says what a key's word tells about a
window no request so far lies behind: the number of the key's requests
in it, capped. A word of another window tells zero, and so does the word
a key is created with, which is why the first window of the clock needs
no case of its own.
-/
import Mathlib.Data.List.Induction
import CgiWebServer.Limiter.Alone

namespace CgiWebServer

namespace FixedWindow

-- ======================================================== the sequences

/-- A setting that limits: at least one request, at least one second. The
upper bound is that of the `int` it is. -/
structure Valid (s : FixedWindowSetting) : Prop where
  max_pos : 1 ≤ s.maxRequests
  max_int : s.maxRequests ≤ 2147483647
  window_pos : 1 ≤ s.windowSeconds

/-- Requests one after the other, whose exchanges never fail spuriously;
the loop of each has had the time of two. -/
structure Sequential (calls : List Call) : Prop where
  in_range : ∀ c ∈ calls, 0 ≤ c.secs ∧ c.secs < 4294967296
  in_order : calls.Pairwise fun a b => a.secs ≤ b.secs
  no_failure : ∀ c ∈ calls,
    ∃ turns, 2 ≤ turns ∧ c.spurious = List.replicate turns false

variable (s : FixedWindowSetting)

/-- The key of a request, if it has one. -/
def keyOf (c : Call) : Option Bytes :=
  (s.makeKey.makeKey c.ip c.request).toOption

/-- The window a request falls into. -/
def windowOf (c : Call) : Int := c.secs.tdiv s.windowSeconds

/-- A request of a key in a window. -/
def asksIn (key : Bytes) (w : Int) (c : Call) : Bool :=
  keyOf s c = some key ∧ windowOf s c = w

/-- The number of a key's requests in a window. -/
def requestsIn (key : Bytes) (w : Int) (calls : List Call) : Nat :=
  calls.countP (asksIn s key w)

/-- The number of a key's admissions in a window. -/
def admissionsIn (key : Bytes) (w : Int) (calls : List Call) : Nat :=
  (verdicts (serve s) ∅ calls).countP fun p =>
    asksIn s key w p.1 && p.2.isAdmitted

/-- The word of a window and a count. -/
def wordOf (w : Int) (n : Nat) : UInt64 := pack (toU32 w) (UInt32.ofNat n)

-- ========================================================= the invariant

/-- What a word tells about a window: a count if it is the word's own,
zero otherwise. -/
def Reads (word : UInt64) (w : Int) (n : Nat) : Prop :=
  (upper word = toU32 w ∧ (lower word).toNat = n)
    ∨ (upper word ≠ toU32 w ∧ n = 0)

variable {s}

private theorem toU32_inj {v w : Int} (hv : 0 ≤ v ∧ v < 4294967296)
    (hw : 0 ≤ w ∧ w < 4294967296) (h : toU32 v = toU32 w) : v = w := by
  have hnat := congrArg UInt32.toNat h
  rw [toNat_toU32 hv.1 hv.2, toNat_toU32 hw.1 hw.2] at hnat
  omega

private theorem toNat_ofNat {n : Nat} (h : n ≤ 2147483647) :
    (UInt32.ofNat n).toNat = n :=
  UInt32.toNat_ofNat_of_lt' (by
    rw [UInt32.size]
    omega)

/-- The word of a window tells its count about it. -/
theorem reads_wordOf (w : Int) {n : Nat} (hn : n ≤ 2147483647) :
    Reads (wordOf w n) w n := by
  refine Or.inl ⟨upper_pack _ _, ?_⟩
  rw [wordOf, lower_pack, toNat_ofNat hn]

/-- It tells nothing about another one. -/
theorem reads_wordOf_other {v w : Int} (n : Nat)
    (hv : 0 ≤ v ∧ v < 4294967296) (hw : 0 ≤ w ∧ w < 4294967296)
    (hne : v ≠ w) : Reads (wordOf v n) w 0 := by
  refine Or.inr ⟨fun hupper => hne ?_, rfl⟩
  rw [wordOf, upper_pack] at hupper
  exact toU32_inj hv hw hupper

/-- A word tells at most one count about a window. -/
theorem Reads.other {word : UInt64} {v w : Int} {n : Nat}
    (h : Reads word v n) (hn : n ≠ 0) (hv : 0 ≤ v ∧ v < 4294967296)
    (hw : 0 ≤ w ∧ w < 4294967296) (hne : v ≠ w) : Reads word w 0 := by
  rcases h with ⟨hupper, -⟩ | ⟨-, hzero⟩
  · refine Or.inr ⟨fun hw' => hne ?_, rfl⟩
    exact toU32_inj hv hw (hupper.symm.trans hw')
  · exact absurd hzero hn

/-- The loop body at a word that tells `n`: one more, or the throw. -/
theorem attempt_of_reads (hs : Valid s) {word : UInt64} {w : Int} {n : Nat}
    (h : Reads word w n) (hn : n ≤ s.maxRequests.toNat) :
    (n < s.maxRequests.toNat
        → attempt s (toU32 w) word = some (wordOf w (n + 1)))
      ∧ (n = s.maxRequests.toNat → attempt s (toU32 w) word = none) := by
  have hpos := hs.max_pos
  have hint := hs.max_int
  have hmax : (toU32 s.maxRequests).toNat = s.maxRequests.toNat :=
    toNat_toU32 (by omega) (by omega)
  rcases attempt_cases s (toU32 w) word with
    ⟨hupper, hfull, hthrow⟩ | ⟨hupper, hroom, hcount⟩ | ⟨hupper, hnew⟩
  · rcases h with ⟨-, hlower⟩ | ⟨hother, -⟩
    · rw [UInt32.le_iff_toNat_le, hmax, hlower] at hfull
      exact ⟨fun hlt => absurd hlt (by omega), fun _ => hthrow⟩
    · exact absurd hupper hother
  · rcases h with ⟨-, hlower⟩ | ⟨hother, -⟩
    · rw [UInt32.lt_iff_toNat_lt, hmax, hlower] at hroom
      refine ⟨fun _ => ?_, fun heq => absurd hroom (by omega)⟩
      have hsucc : lower word + 1 = UInt32.ofNat (n + 1) := by
        apply UInt32.toNat_inj.mp
        rw [UInt32.toNat_add, hlower, toNat_ofNat (by omega)]
        exact Nat.mod_eq_of_lt (by
          show n + 1 < 2 ^ 32
          omega)
      rw [hcount, hsucc]
      rfl
    · exact absurd hupper hother
  · rcases h with ⟨hown, -⟩ | ⟨-, rfl⟩
    · exact absurd hown hupper
    · refine ⟨fun _ => hnew, fun heq => absurd heq (by omega)⟩

/-- The desired word is never the one that is there: the first exchange
of an admission changes the word, so the second one fails. -/
theorem wordOf_succ_ne {word : UInt64} {w : Int} {n : Nat}
    (h : Reads word w n) (hn : n < 2147483647) : wordOf w (n + 1) ≠ word := by
  intro heq
  rcases h with ⟨-, hlower⟩ | ⟨hother, -⟩
  · rw [← heq, wordOf, lower_pack, toNat_ofNat (by omega)] at hlower
    omega
  · rw [← heq, wordOf, upper_pack] at hother
    exact hother rfl

-- ============================================================ one request

private theorem ok_of_keyOf {c : Call} {key : Bytes}
    (h : keyOf s c = some key) : s.makeKey.makeKey c.ip c.request = .ok key := by
  unfold keyOf at h
  cases hkey : s.makeKey.makeKey c.ip c.request with
  | error e =>
      rw [hkey] at h
      cases h
  | ok k =>
      rw [hkey] at h
      cases h
      rfl

private theorem error_of_keyOf {c : Call} (h : keyOf s c = none) :
    ∃ e, s.makeKey.makeKey c.ip c.request = .error e := by
  unfold keyOf at h
  cases hkey : s.makeKey.makeKey c.ip c.request with
  | error e => exact ⟨e, rfl⟩
  | ok k =>
      rw [hkey] at h
      cases h

/-- A request without a key changes nothing. -/
theorem serve_of_noKey {c : Call} (h : keyOf s c = none) (words : Words) :
    ∃ e, serve s words c = (words, .noKey e) := by
  obtain ⟨e, he⟩ := error_of_keyOf h
  exact ⟨e, by rw [serve, he]⟩

/-- A request whose window's count is below the limit is admitted, and
its key's word is that of one more. -/
theorem serve_of_room (hs : Valid s) {words : Words} {c : Call}
    {key : Bytes} {n : Nat} (hkey : keyOf s c = some key)
    (hreads : Reads ((words.lookup key).getD 0) (windowOf s c) n)
    (hn : n < s.maxRequests.toNat)
    (hspurious : ∃ turns, 2 ≤ turns
      ∧ c.spurious = List.replicate turns false) :
    serve s words c
      = (words.insert key (wordOf (windowOf s c) (n + 1)),
          .admitted (admittedHeaders s (toU32 (windowOf s c))
            (wordOf (windowOf s c) (n + 1)))) := by
  have hint := hs.max_int
  have hwindow : s.windowSeconds ≠ 0 := by
    have := hs.window_pos
    omega
  obtain ⟨turns, hturns, hlist⟩ := hspurious
  obtain ⟨rest, hrest⟩ : ∃ rest, c.spurious = false :: false :: rest := by
    obtain ⟨more, rfl⟩ := Nat.exists_eq_add_of_le' hturns
    exact ⟨_, hlist⟩
  have hattempt := (attempt_of_reads hs hreads (by omega)).1 hn
  have hloop := loopAlone_onSuccess hattempt
    (wordOf_succ_ne hreads (by omega)) rest
  simp only [serve, ok_of_keyOf hkey, if_neg hwindow, hrest]
  simp only [windowOf, thisWindowId] at hloop ⊢
  rw [hloop]

/-- A request whose window's count is the limit is rejected, and leaves
its key's word as it was. -/
theorem serve_of_full (hs : Valid s) {words : Words} {c : Call}
    {key : Bytes} (hkey : keyOf s c = some key)
    (hreads : Reads ((words.lookup key).getD 0) (windowOf s c)
      s.maxRequests.toNat) :
    ∃ word, words.lookup key = some word
      ∧ serve s words c
        = (words.insert key word,
            .rejected (rejection s key (toU32 (windowOf s c)) c.secs)) := by
  have hpos := hs.max_pos
  have hwindow : s.windowSeconds ≠ 0 := by
    have := hs.window_pos
    omega
  have hattempt := (attempt_of_reads hs hreads (Nat.le_refl _)).2 rfl
  cases hword : words.lookup key with
  | none =>
      -- A word that is not there yet tells zero, and zero is room.
      rw [hword, Option.getD_none] at hreads
      rcases hreads with ⟨-, hlower⟩ | ⟨-, hzero⟩
      · have hzero : s.maxRequests.toNat = 0 := hlower.symm
        omega
      · omega
  | some word =>
      refine ⟨word, rfl, ?_⟩
      rw [hword, Option.getD_some] at hattempt
      simp only [serve, ok_of_keyOf hkey, if_neg hwindow, hword,
        Option.getD_some]
      simp only [windowOf, thisWindowId] at hattempt ⊢
      rw [loopAlone_of_none hattempt]

-- ============================================================= sequences

theorem Sequential.before {calls : List Call} {c : Call}
    (h : Sequential (calls ++ [c])) : Sequential calls where
  in_range d hd := h.in_range d (List.mem_append_left _ hd)
  in_order := (List.pairwise_append.mp h.in_order).1
  no_failure d hd := h.no_failure d (List.mem_append_left _ hd)

theorem Sequential.append {before after : List Call} {c : Call}
    (h : Sequential (before ++ c :: after)) : Sequential (before ++ [c]) := by
  rw [List.append_cons] at h
  exact {
    in_range := fun d hd => h.in_range d (List.mem_append_left _ hd)
    in_order := (List.pairwise_append.mp h.in_order).1
    no_failure := fun d hd => h.no_failure d (List.mem_append_left _ hd) }

/-- The windows are window ids. -/
theorem windowOf_range (hs : Valid s) {c : Call}
    (hc : 0 ≤ c.secs ∧ c.secs < 4294967296) :
    0 ≤ windowOf s c ∧ windowOf s c < 4294967296 := by
  have hpos := hs.window_pos
  unfold windowOf
  rw [Int.tdiv_eq_ediv_of_nonneg hc.1]
  exact ⟨Int.ediv_nonneg hc.1 (by omega),
    Int.lt_of_le_of_lt (Int.ediv_le_self _ hc.1) hc.2⟩

/-- The last request is in the latest window. -/
theorem windowOf_le_last (hs : Valid s) {calls : List Call} {c : Call}
    (h : Sequential (calls ++ [c])) :
    ∀ d ∈ calls, windowOf s d ≤ windowOf s c := by
  intro d hd
  have hpos := hs.window_pos
  have hle : d.secs ≤ c.secs :=
    (List.pairwise_append.mp h.in_order).2.2 d hd c (by simp)
  have hd0 := (h.in_range d (List.mem_append_left _ hd)).1
  have hc0 := (h.in_range c (by simp)).1
  unfold windowOf
  rw [Int.tdiv_eq_ediv_of_nonneg hd0, Int.tdiv_eq_ediv_of_nonneg hc0]
  exact Int.ediv_le_ediv (by omega) hle

theorem requestsIn_snoc (key : Bytes) (w : Int) (calls : List Call)
    (c : Call) :
    requestsIn s key w (calls ++ [c])
      = requestsIn s key w calls + (asksIn s key w c).toNat := by
  rw [requestsIn, List.countP_append]
  cases h : asksIn s key w c <;> simp [requestsIn, h]

/-- No request lies in a window behind them all. -/
theorem requestsIn_of_lt {calls : List Call} {w : Int}
    (h : ∀ c ∈ calls, windowOf s c < w) (key : Bytes) :
    requestsIn s key w calls = 0 := by
  rw [requestsIn, List.countP_eq_zero]
  intro c hc hasks
  have hw := (of_decide_eq_true hasks).2
  exact absurd (h c hc) (by omega)

/-- What the words tell: of every window that no request lies behind, the
number of the key's requests in it, up to the limit. -/
def Tells (s : FixedWindowSetting) (calls : List Call)
    (words : Words) : Prop :=
  ∀ key w, 0 ≤ w ∧ w < 4294967296 → (∀ c ∈ calls, windowOf s c ≤ w) →
    Reads ((words.lookup key).getD 0) w
      (min (requestsIn s key w calls) s.maxRequests.toNat)

/-- One request keeps it. -/
theorem tells_snoc (hs : Valid s) {calls : List Call} {c : Call}
    (hcalls : Sequential (calls ++ [c])) {words : Words}
    (h : Tells s calls words) :
    Tells s (calls ++ [c]) (serve s words c).1 := by
  have hpos := hs.max_pos
  have hint := hs.max_int
  have hrange := windowOf_range hs (hcalls.in_range c (by simp))
  have hlast := windowOf_le_last hs hcalls
  intro key w hw hcover
  have hbefore : ∀ d ∈ calls, windowOf s d ≤ w := fun d hd =>
    hcover d (List.mem_append_left _ hd)
  have hle : windowOf s c ≤ w := hcover c (by simp)
  have hold := h key w hw hbefore
  rw [requestsIn_snoc]
  cases hkey : keyOf s c with
  | none =>
      have hasks : asksIn s key w c = false := by simp [asksIn, hkey]
      obtain ⟨e, he⟩ := serve_of_noKey hkey words
      rw [he, hasks]
      exact hold
  | some own =>
      have htold := h own (windowOf s c) hrange hlast
      have hasks : asksIn s key w c = true
          ↔ key = own ∧ windowOf s c = w := by
        rw [asksIn, hkey, decide_eq_true_iff, Option.some_inj,
          eq_comm (a := own)]
      have hlater : windowOf s c ≠ w → requestsIn s own w calls = 0 :=
        fun hne => requestsIn_of_lt (fun d hd => by
          have := hlast d hd
          omega) own
      -- Only the own key's word changes. It tells of its own window, and a
      -- later one has no requests yet.
      by_cases hroom : requestsIn s own (windowOf s c) calls
          < s.maxRequests.toNat
      · rw [Nat.min_eq_left (by omega)] at htold
        rw [serve_of_room hs hkey htold hroom
          (hcalls.no_failure c (by simp))]
        by_cases hown : key = own
        · subst hown
          rw [AList.lookup_insert, Option.getD_some]
          by_cases hwin : windowOf s c = w
          · rw [hasks.mpr ⟨rfl, hwin⟩, ← hwin,
              Nat.min_eq_left (by simp only [Bool.toNat_true]; omega)]
            exact reads_wordOf _ (by omega)
          · rw [hlater hwin, Bool.eq_false_iff.mpr fun hyes =>
              hwin (hasks.mp hyes).2]
            exact reads_wordOf_other _ hrange hw hwin
        · rw [AList.lookup_insert_ne hown, Bool.eq_false_iff.mpr fun hyes =>
            hown (hasks.mp hyes).1]
          exact hold
      · rw [Nat.min_eq_right (by omega)] at htold
        obtain ⟨word, hword, hserve⟩ := serve_of_full hs hkey htold
        rw [hserve]
        by_cases hown : key = own
        · subst hown
          rw [hword, Option.getD_some] at htold
          rw [AList.lookup_insert, Option.getD_some]
          by_cases hwin : windowOf s c = w
          · rw [← hwin, Nat.min_eq_right (by omega)]
            exact htold
          · rw [hlater hwin, Bool.eq_false_iff.mpr fun hyes =>
              hwin (hasks.mp hyes).2]
            exact htold.other (by omega) hrange hw hwin
        · rw [AList.lookup_insert_ne hown, Bool.eq_false_iff.mpr fun hyes =>
            hown (hasks.mp hyes).1]
          exact hold

/-- It holds after every sequence. -/
theorem tells_after (hs : Valid s) {calls : List Call}
    (hcalls : Sequential calls) :
    Tells s calls (wordsAfter (serve s) calls) := by
  induction calls using List.reverseRecOn with
  | nil =>
      intro key w _ _
      -- The word of a key nobody asked for is zero.
      by_cases hw : upper 0 = toU32 w
      · exact Or.inl ⟨hw, rfl⟩
      · exact Or.inr ⟨hw, rfl⟩
  | append_singleton calls c ih =>
      rw [wordsAfter_snoc]
      exact tells_snoc hs hcalls (ih hcalls.before)

-- ======================================================= the admissions

/-- A request is admitted exactly when fewer than `max_requests` of its
key came before it in its window. -/
theorem isAdmitted_iff (hs : Valid s) {calls : List Call} {c : Call}
    (hcalls : Sequential (calls ++ [c])) {key : Bytes}
    (hkey : keyOf s c = some key) :
    (serve s (wordsAfter (serve s) calls) c).2.isAdmitted = true
      ↔ requestsIn s key (windowOf s c) calls < s.maxRequests.toNat := by
  have hrange := windowOf_range hs (hcalls.in_range c (by simp))
  have htold := tells_after hs hcalls.before key _ hrange
    (windowOf_le_last hs hcalls)
  by_cases hroom : requestsIn s key (windowOf s c) calls
      < s.maxRequests.toNat
  · rw [Nat.min_eq_left (by omega)] at htold
    rw [serve_of_room hs hkey htold hroom (hcalls.no_failure c (by simp))]
    exact iff_of_true rfl hroom
  · rw [Nat.min_eq_right (by omega)] at htold
    obtain ⟨word, -, hserve⟩ := serve_of_full hs hkey htold
    rw [hserve]
    exact iff_of_false (by simp [Verdict.isAdmitted]) hroom

/-- A key's admissions in a window are its requests in it, up to the
limit. -/
theorem admissionsIn_eq (hs : Valid s) {calls : List Call}
    (hcalls : Sequential calls) (key : Bytes) (w : Int) :
    admissionsIn s key w calls
      = min (requestsIn s key w calls) s.maxRequests.toNat := by
  induction calls using List.reverseRecOn with
  | nil => exact (Nat.zero_min _).symm
  | append_singleton calls c ih =>
      have hcount : admissionsIn s key w (calls ++ [c])
          = admissionsIn s key w calls
            + (asksIn s key w c
                && (serve s (wordsAfter (serve s) calls) c).2.isAdmitted
              ).toNat :=
        countP_verdicts_snoc _ _ _ _
      rw [hcount, ih hcalls.before, requestsIn_snoc]
      cases hasks : asksIn s key w c with
      | false => rfl
      | true =>
          obtain ⟨hkey, rfl⟩ := of_decide_eq_true hasks
          rw [Bool.true_and]
          by_cases hroom : requestsIn s key (windowOf s c) calls
              < s.maxRequests.toNat
          · rw [(isAdmitted_iff hs hcalls hkey).mpr hroom]
            simp only [Bool.toNat_true]
            omega
          · rw [Bool.eq_false_iff.mpr fun hyes =>
              hroom ((isAdmitted_iff hs hcalls hkey).mp hyes)]
            simp only [Bool.toNat_true, Bool.toNat_false]
            omega

/-- What an admitted response says remains. -/
theorem remaining_eq (hs : Valid s) (w : Int) {n : Nat}
    (hn : n ≤ s.maxRequests.toNat) :
    (Verdict.admitted (admittedHeaders s (toU32 w) (wordOf w n))).header
        remainingHeader = some (toStr (s.maxRequests - n)) := by
  have hpos := hs.max_pos
  have hint := hs.max_int
  have hmax : (toU32 s.maxRequests).toNat = s.maxRequests.toNat :=
    toNat_toU32 (by omega) (by omega)
  have hcount : (lower (wordOf w n)).toNat = n := by
    rw [wordOf, lower_pack, toNat_ofNat (by omega)]
  have hsub : (toU32 s.maxRequests - lower (wordOf w n)).toNat
      = s.maxRequests.toNat - n := by
    rw [UInt32.toNat_sub_of_le _ _ (UInt32.le_iff_toNat_le.mpr (by
      rw [hmax, hcount]
      exact hn)), hmax, hcount]
  have hlookup : (Verdict.admitted
      (admittedHeaders s (toU32 w) (wordOf w n))).header remainingHeader
      = some (toStr (toU32 s.maxRequests - lower (wordOf w n)).toNat) :=
    rfl
  rw [hlookup, hsub]
  congr 2
  omega

/-- The first `max_requests` requests of a key in a window are admitted,
each telling how many remain, and the others are rejected; an admission
changes its own key's word only, a rejection changes none. -/
theorem first_requests_admitted (hs : Valid s) {calls : List Call}
    (hcalls : Sequential calls) {before after : List Call} {c : Call}
    {key : Bytes} (hsplit : calls = before ++ c :: after)
    (hkey : keyOf s c = some key) :
    let w := windowOf s c
    let words := wordsAfter (serve s) before
    let asked := requestsIn s key w before
    let granted := admissionsIn s key w (before ++ [c])
    let served := serve s words c
    (asked < s.maxRequests.toNat →
        served.2.isAdmitted = true
          ∧ granted = asked + 1
          ∧ served.1.lookup key = some (wordOf w granted)
          ∧ (∀ k, k ≠ key → served.1.lookup k = words.lookup k)
          ∧ served.2.header remainingHeader
              = some (toStr (s.maxRequests - granted))
          ∧ 0 ≤ s.maxRequests - granted)
      ∧ (s.maxRequests.toNat ≤ asked →
        (∃ e, served.2 = .rejected e)
          ∧ granted = s.maxRequests.toNat
          ∧ ∀ k, served.1.lookup k = words.lookup k) := by
  subst hsplit
  have hearlier := hcalls.append
  have hrange := windowOf_range hs (hearlier.in_range c (by simp))
  have htold := tells_after hs hearlier.before key _ hrange
    (windowOf_le_last hs hearlier)
  have hasks : asksIn s key (windowOf s c) c = true := by
    simp [asksIn, hkey]
  intro w words asked granted served
  have hgranted : granted = min (asked + 1) s.maxRequests.toNat := by
    have hall := admissionsIn_eq hs hearlier key (windowOf s c)
    rw [requestsIn_snoc, hasks] at hall
    exact hall
  -- The word tells how many requests came before, up to the maximum.
  constructor
  · intro hroom
    have hone : granted = asked + 1 := by omega
    rw [Nat.min_eq_left (Nat.le_of_lt hroom)] at htold
    have hserved := serve_of_room hs hkey htold hroom
      (hearlier.no_failure c (by simp))
    have hwords : served.1 = words.insert key (wordOf w granted) := by
      rw [hone]
      exact congrArg Prod.fst hserved
    have hverdict : served.2 = .admitted
        (admittedHeaders s (toU32 w) (wordOf w granted)) := by
      rw [hone]
      exact congrArg Prod.snd hserved
    refine ⟨?_, hone, ?_, fun k hk => ?_, ?_, by omega⟩
    · rw [hverdict]
      rfl
    · rw [hwords, AList.lookup_insert]
    · rw [hwords, AList.lookup_insert_ne hk]
    · rw [hverdict]
      exact remaining_eq hs w (by omega)
  · intro hfull
    rw [Nat.min_eq_right hfull] at htold
    obtain ⟨word, hword, hserved⟩ := serve_of_full hs hkey htold
    refine ⟨⟨_, congrArg Prod.snd hserved⟩, by omega, fun k => ?_⟩
    rw [show served.1 = words.insert key word from
      congrArg Prod.fst hserved]
    by_cases hk : k = key
    · rw [hk, AList.lookup_insert, hword]
    · exact AList.lookup_insert_ne hk

/-- One request in ten seconds. -/
def onceInTen : FixedWindowSetting := { maxRequests := 1, windowSeconds := 10 }

/-- A client's request at a second. -/
def callAt (secs : Int) : Call :=
  { ip := bytes "a", secs := secs, spurious := [false, false] }

/-- The second request of the clock's first window is rejected, the first
of the next one admitted. -/
theorem first_requests_admitted_once :
    (∃ e, (serve onceInTen (wordsAfter (serve onceInTen) [callAt 3])
        (callAt 9)).2 = .rejected e)
      ∧ (serve onceInTen
          (wordsAfter (serve onceInTen) [callAt 3, callAt 9])
          (callAt 10)).2.isAdmitted = true := by
  have hs : Valid onceInTen := ⟨by decide, by decide, by decide⟩
  have hcalls : Sequential [callAt 3, callAt 9, callAt 10] :=
    ⟨by decide, by decide, fun c hc => ⟨2, Nat.le_refl _, by
      simp only [List.mem_cons, List.not_mem_nil, or_false] at hc
      rcases hc with rfl | rfl | rfl <;> rfl⟩⟩
  have hsecond := first_requests_admitted hs hcalls
    (show [callAt 3, callAt 9, callAt 10]
      = [callAt 3] ++ callAt 9 :: [callAt 10] from rfl) rfl
  have hthird := first_requests_admitted hs hcalls
    (show [callAt 3, callAt 9, callAt 10]
      = [callAt 3, callAt 9] ++ callAt 10 :: [] from rfl) rfl
  exact ⟨(hsecond.2 (by decide)).1, (hthird.1 (by decide)).1⟩

end FixedWindow

end CgiWebServer
