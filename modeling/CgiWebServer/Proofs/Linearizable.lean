/-
The concurrent token bucket is the atomic one.

# The mapping

Every request of the concurrent limiter is read as one of the atomic
limiter (`turn`), and what the limiter keeps is read as the one word or
none (`storedWord`). Three kinds of moves are steps of the atomic
limiter: the emplace creates, the clock reading is one, and a request is
served where it stores and where it reads a word that leaves it no token,
which may be its load or an exchange that failed. Everything else, the
two lookups and the lock included, is no step at all. The invariant that
makes this a refinement is the one of conservation: the bucket a request
points to is the only one.

# The order

The steps that serve put the requests in an order. Served alone in that
order by the sequential limiter, each gets the verdict it got.
-/
import CgiWebServer.Limiter.AtomicBucket
import CgiWebServer.Proofs.TokenBucket
import CgiWebServer.Proofs.RetryAfter

namespace CgiWebServer

namespace TokenBucket

open Interleave

variable {s : TokenBucketSetting}

-- ========================================================== the mapping

/-- A request, read as one of the atomic limiter. -/
def turn (s : TokenBucketSetting) : Phase → Turn
  | .timed _ secs => .timed secs
  | .looping _ secs old =>
      if (attempt s secs old).isSome then .timed secs else .done false
  | .admitted => .done true
  | .rejected => .done false
  | _ => .waiting

/-- The word the map's entry leads to. -/
def storedWord (m : Shared) : Option UInt64 :=
  m.entry.bind fun p => m.buckets[p]?.map Bucket.word

/-- Which moves may be which steps of the atomic limiter. -/
inductive Becomes : Move → AtomicMove → Prop
  | create (now : UInt32) : Becomes (.emplace now) (.create now)
  | clock (secs : UInt32) : Becomes (.clock secs) (.clock secs)
  | load : Becomes .load .serve
  | exchange (spurious : Bool) : Becomes (.exchange spurious) .serve

/-- A move that is no step of the atomic limiter. -/
def Stutters (s : TokenBucketSetting) (m m' : Shared) (t t' : Phase) :
    Prop :=
  storedWord m' = storedWord m ∧ turn s t' = turn s t

/-- A move that is a step of the atomic limiter. -/
def Acts (s : TokenBucketSetting) (a : Move) (m m' : Shared)
    (t t' : Phase) : Prop :=
  ∃ a', Becomes a a' ∧ atomicStep s a' (storedWord m) (turn s t)
    = some (storedWord m', turn s t')

/-- The word of a bucket that exists is the one the entry leads to. -/
theorem storedWord_of_bucket {m : Shared} {admitted p : Nat} {b : Bucket}
    (hstored : Stored s m admitted) (hb : m.buckets[p]? = some b) :
    storedWord m = some b.word := by
  obtain ⟨-, hone, hentry, -⟩ := one_bucket hstored hb
  rw [storedWord, hentry, hone]
  rfl

/-- Reading a word: it serves the request where it leaves no token, and
is no step where it leaves one. -/
theorem reads {a : Move} {m : Shared} {t : Phase} {p : Nat}
    {secs : UInt32} {word : UInt64} (hbecomes : Becomes a .serve)
    (hword : storedWord m = some word) (ht : turn s t = .timed secs) :
    Stutters s m m t (.looping p secs word)
      ∨ Acts s a m m t (.looping p secs word) := by
  cases hattempt : attempt s secs word with
  | some desired =>
      left
      refine ⟨rfl, ?_⟩
      rw [ht, turn, hattempt]
      rfl
  | none =>
      right
      refine ⟨.serve, hbecomes, ?_⟩
      rw [hword, ht]
      simp [turn, hattempt, atomicStep]

/-- An exchange is served, or no step. -/
theorem turn_exchange {spurious : Bool} {m m' : Shared} {admitted p : Nat}
    {secs : UInt32} {old : UInt64} {t' : Phase}
    (hstored : Stored s m admitted)
    (hstep : step s (.exchange spurious) m (.looping p secs old)
      = some (m', t')) :
    Stutters s m m' (.looping p secs old) t'
      ∨ Acts s (.exchange spurious) m m' (.looping p secs old) t' := by
  cases exchangeStep_of hstep with
  | rejected hthrows =>
      left
      refine ⟨rfl, ?_⟩
      simp [turn, hthrows]
  -- A failed exchange is a load: it serves the request where the word read
  -- leaves no token.
  | round hb hattempt =>
      exact reads (.exchange spurious) (storedWord_of_bucket hstored hb)
        (by simp [turn, hattempt])
  | stored hb hold hattempt =>
      right
      have hword := storedWord_of_bucket hstored hb
      obtain ⟨rfl, hone, hentry, -⟩ := one_bucket hstored hb
      refine ⟨.serve, .exchange spurious, ?_⟩
      rw [hword, hold]
      simp [turn, hattempt, atomicStep, storedWord, hentry, hone]

/-- The moves, read as steps of the atomic limiter. -/
theorem turn_step {sys : Sys Shared Phase} {i : Nat} {a : Move}
    {t t' : Phase} {m' : Shared} (hinv : Inv s sys)
    (ht : sys.threads[i]? = some t)
    (hstep : step s a sys.shared t = some (m', t')) :
    Stutters s sys.shared m' t t' ∨ Acts s a sys.shared m' t t' := by
  have hstored := hinv.stored
  -- Lookups and the lock are no steps of the atomic limiter.
  cases a with
  | lookup =>
      cases t with
      | fresh =>
          left
          simp only [step] at hstep
          cases hentry : sys.shared.entry <;> rw [hentry] at hstep <;>
            cases hstep <;> exact ⟨rfl, rfl⟩
      | _ => cases hstep
  | lock =>
      cases t with
      | missed =>
          left
          simp only [step] at hstep
          cases hlocked : sys.shared.locked <;> rw [hlocked] at hstep <;>
            cases hstep
          exact ⟨rfl, rfl⟩
      | _ => cases hstep
  | lookupLocked =>
      cases t with
      | locked =>
          left
          simp only [step] at hstep
          cases hentry : sys.shared.entry <;> rw [hentry] at hstep <;>
            cases hstep <;> exact ⟨rfl, rfl⟩
      | _ => cases hstep
  | unlock =>
      cases t with
      | holding p =>
          cases hstep
          exact Or.inl ⟨rfl, rfl⟩
      | _ => cases hstep
  | emplace now =>
      cases t with
      | absent =>
          right
          cases hstep
          -- The holder of the lock saw no entry, and there is still none.
          have hnone : sys.shared.buckets = [] := by
            cases hinv.absent with
            | inr hnone => exact hnone
            | inl hzero =>
                have hcount := not_counted isAbsent hzero
                  (List.mem_of_getElem? ht)
                exact absurd hcount (by simp [isAbsent])
          have hentry : sys.shared.entry = none := by
            rcases hstored with ⟨-, hentry, -⟩ | ⟨b, hone, -, -⟩
            · exact hentry
            · exact absurd (hnone.symm.trans hone) (by simp)
          refine ⟨.create now, .create now, ?_⟩
          simp [storedWord, hentry, hnone, turn, atomicStep, created]
      | _ => cases hstep
  | clock secs =>
      cases t with
      | found p =>
          right
          cases hstep
          refine ⟨.clock secs, .clock secs, ?_⟩
          cases hword : storedWord sys.shared <;> rfl
      | _ => cases hstep
  | load =>
      cases t with
      | timed p secs =>
          simp only [step] at hstep
          cases hb : sys.shared.buckets[p]? with
          | none =>
              rw [hb] at hstep
              cases hstep
          | some b =>
              rw [hb] at hstep
              cases hstep
              exact reads .load (storedWord_of_bucket hstored hb) rfl
      | _ => cases hstep
  | exchange spurious =>
      cases t with
      | looping p secs old => exact turn_exchange hstored hstep
      | _ => cases hstep

-- ============================================================ the order

/-- What the sequential limiter is called with for a request: its own
data, the clock it had read, and the stamp of the one creation. -/
def callOf (caller : Nat → Call) (created : UInt32) (x : Nat × UInt32) :
    Call :=
  { caller x.1 with
    created := created.toNat
    secs := x.2.toNat
    spurious := [false] }

/-- Whether the sequential limiter admits a request after others. -/
def admits (s : TokenBucketSetting) (caller : Nat → Call)
    (created : UInt32) (before : List (Nat × UInt32)) (x : Nat × UInt32) :
    Bool :=
  (serve s (wordsAfter (serve s) (before.map (callOf caller created)))
    (callOf caller created x)).2.isAdmitted

/-- The word the sequential limiter leaves for the key, or creates. -/
def wordAfter (s : TokenBucketSetting) (caller : Nat → Call) (key : Bytes)
    (created : UInt32) (order : List (Nat × UInt32)) : UInt64 :=
  ((wordsAfter (serve s) (order.map (callOf caller created))).lookup
    key).getD (newBucket s created)

/-- The reading of a clock, as the limiter converts it back. -/
theorem toU32_toNat (secs : UInt32) : toU32 (secs.toNat : Int) = secs := by
  have hlt := secs.toNat_lt
  apply UInt32.toNat_inj.mp
  rw [toNat_toU32 (by omega) (by omega), Int.toNat_natCast]

section Serving

variable {caller : Nat → Call} {key : Bytes}
variable (hkey : ∀ i, (caller i).key s.makeKey = .ok key)
include hkey

/-- One request of the sequential limiter is one attempt at its word. -/
theorem serve_callOf (created : UInt32) (before : List (Nat × UInt32))
    (x : Nat × UInt32) :
    admits s caller created before x
        = (attempt s x.2 (wordAfter s caller key created before)).isSome
      ∧ wordAfter s caller key created (before ++ [x])
        = (attempt s x.2 (wordAfter s caller key created before)).getD
            (wordAfter s caller key created before) := by
  have hown : (callOf caller created x).key s.makeKey = .ok key := hkey x.1
  have hword : wordFor s
      (wordsAfter (serve s) (before.map (callOf caller created))) key
        (callOf caller created x)
      = wordAfter s caller key created before := by
    rw [wordFor, wordAfter]
    show _ = Option.getD _ (newBucket s created)
    rw [show toU32 (callOf caller created x).created = created from
      toU32_toNat created]
  have hsecs : toU32 (callOf caller created x).secs = x.2 :=
    toU32_toNat x.2
  have hafter : wordAfter s caller key created (before ++ [x])
      = (((serve s (wordsAfter (serve s)
          (before.map (callOf caller created)))
            (callOf caller created x)).1).lookup key).getD
              (newBucket s created) := by
    rw [wordAfter, List.map_append, List.map_cons, List.map_nil,
      wordsAfter_snoc]
  rw [hafter, admits]
  -- It finds the word the earlier ones have left, and its one exchange
  -- stores.
  cases hattempt : attempt s x.2 (wordAfter s caller key created before) with
  | none =>
      have hserve := serve_of_none hown
        (by rw [hword, hsecs]; exact hattempt)
      rw [hserve, hword]
      simp [Verdict.isAdmitted]
  | some desired =>
      have hloop := loopAlone_onFailure hattempt 0 []
      have hserve : serve s
          (wordsAfter (serve s) (before.map (callOf caller created)))
            (callOf caller created x)
          = ((wordsAfter (serve s)
              (before.map (callOf caller created))).insert key desired,
            .admitted (admittedHeaders s x.2
              (callOf caller created x).systemSecs desired)) := by
        rw [Call.key] at hown
        rw [wordFor] at hword
        simp only [serve, hown, hword, hsecs]
        rw [show (callOf caller created x).spurious
          = List.replicate 0 true ++ false :: [] from rfl, hloop]
      rw [hserve]
      simp [Verdict.isAdmitted]

end Serving

-- ================================================= atomic runs in order

/-- The empty atomic limiter. -/
def nothing : Sys (Option UInt64) Turn := ⟨none, []⟩

/-- An atomic run, told as the requests it served and the stamp of the
creation: each request served got the verdict the sequential limiter
gives it after those before it, no other request is done, and the word is
the one the sequential limiter leaves. -/
structure Serial (s : TokenBucketSetting) (caller : Nat → Call)
    (key : Bytes) (created : UInt32)
    (schedule : List (Action Unit AtomicMove))
    (order : List (Nat × UInt32)) (a : Sys (Option UInt64) Turn) :
    Prop where
  stored : (a.shared = none ∧ order = [])
    ∨ (a.shared = some (wordAfter s caller key created order)
      ∧ ∃ j, Action.move j (.create created) ∈ schedule)
  served : Steps.Every (fun before x => a.threads[x.1]?
    = some (.done (admits s caller created before x))) order
  done : ∀ i b, a.threads[i]? = some (.done b) → i ∈ order.map Prod.fst
  once : (order.map Prod.fst).Nodup
  timed : ∀ i secs, a.threads[i]? = some (.timed secs) →
    Action.move i (.clock secs) ∈ schedule
  clocks : ∀ x ∈ order, Action.move x.1 (.clock x.2) ∈ schedule

namespace Serial

variable {caller : Nat → Call} {key : Bytes} {created : UInt32}
variable {schedule : List (Action Unit AtomicMove)}
variable {order : List (Nat × UInt32)} {a : Sys (Option UInt64) Turn}

/-- A thread that changed without being served changes nothing told. -/
theorem quiet (h : Serial s caller key created schedule order a)
    (x : Action Unit AtomicMove) {threads : List Turn}
    (hdone : ∀ (i : Nat) (b : Bool), threads[i]? = some (.done b)
      ↔ a.threads[i]? = some (.done b))
    (htimed : ∀ (i : Nat) (secs : UInt32),
      threads[i]? = some (.timed secs) →
        a.threads[i]? = some (.timed secs) ∨ x = .move i (.clock secs)) :
    Serial s caller key created (schedule ++ [x]) order
      ⟨a.shared, threads⟩ := by
  refine ⟨?_, ?_, ?_, h.once, ?_, ?_⟩
  · rcases h.stored with hnone | ⟨hword, j, hj⟩
    · exact Or.inl hnone
    · exact Or.inr ⟨hword, j, List.mem_append_left _ hj⟩
  · intro before y after hsplit
    exact (hdone _ _).mpr (h.served before y after hsplit)
  · intro i b hi
    exact h.done i b ((hdone i b).mp hi)
  · intro i secs hi
    rcases htimed i secs hi with hold | rfl
    · exact List.mem_append_left _ (h.timed i secs hold)
    · exact List.mem_append_right _ (List.mem_singleton.mpr rfl)
  · intro y hy
    exact List.mem_append_left _ (h.clocks y hy)

/-- An arrival. -/
theorem arrive (h : Serial s caller key created schedule order a)
    (r : Unit) :
    Serial s caller key created (schedule ++ [.arrive r]) order
      ⟨a.shared, a.threads ++ [.waiting]⟩ := by
  have hold : ∀ {i : Nat} {u : Turn}, u ≠ .waiting →
      (a.threads ++ [.waiting])[i]? = some u → a.threads[i]? = some u := by
    intro i u hu hi
    rcases getElem?_arrive_cases hi with hnew | hold
    · exact absurd hnew hu
    · exact hold
  refine h.quiet _ (fun i b => ⟨hold (by simp), fun hi => ?_⟩)
    (fun i secs hi => Or.inl (hold (by simp) hi))
  obtain ⟨hlt, -⟩ := List.getElem?_eq_some_iff.mp hi
  rw [List.getElem?_append_left hlt, hi]

/-- A clock reading. -/
theorem clock {i : Nat} (h : Serial s caller key created schedule order a)
    (hi : a.threads[i]? = some .waiting) (secs : UInt32) :
    Serial s caller key created (schedule ++ [.move i (.clock secs)]) order
      ⟨a.shared, a.threads.set i (.timed secs)⟩ := by
  refine h.quiet _ (fun j b => ⟨fun hj => ?_, fun hj => ?_⟩)
    (fun j secs' hj => ?_)
  · rcases getElem?_set_cases hj with ⟨-, hnew⟩ | ⟨-, hold⟩
    · cases hnew
    · exact hold
  · have hne : i ≠ j := by
      rintro rfl
      exact absurd (hi.symm.trans hj) (by simp)
    rw [List.getElem?_set_ne hne, hj]
  · rcases getElem?_set_cases hj with ⟨rfl, hnew⟩ | ⟨-, hold⟩
    · cases hnew
      exact Or.inr rfl
    · exact Or.inl hold

/-- A creation: the stamp is settled, and nobody was served before. -/
theorem create {i : Nat} {created' : UInt32}
    (h : Serial s caller key created' schedule order a)
    (hnone : a.shared = none) (hi : a.threads[i]? = some .waiting)
    (now : UInt32) :
    Serial s caller key now (schedule ++ [.move i (.create now)]) order
      ⟨some (newBucket s now), a.threads.set i .waiting⟩ := by
  obtain ⟨-, rfl⟩ : a.shared = none ∧ order = [] := by
    rcases h.stored with hempty | ⟨hword, -⟩
    · exact hempty
    · exact absurd (hnone.symm.trans hword) (by simp)
  have hsame : a.threads.set i .waiting = a.threads := by
    obtain ⟨hlt, hget⟩ := List.getElem?_eq_some_iff.mp hi
    rw [← hget]
    exact List.set_getElem_self hlt
  rw [hsame]
  refine ⟨Or.inr ⟨rfl, i, by simp⟩, Steps.every_nil, h.done, h.once, ?_, ?_⟩
  · intro j secs hj
    exact List.mem_append_left _ (h.timed j secs hj)
  · intro y hy
    exact absurd hy (by simp)

/-- A serving: the request goes behind those served before it, with the
verdict the sequential limiter gives it there. -/
theorem serve {i : Nat} {secs : UInt32} {word : UInt64}
    (hkey : ∀ i, (caller i).key s.makeKey = .ok key)
    (h : Serial s caller key created schedule order a)
    (hword : a.shared = some word)
    (hi : a.threads[i]? = some (.timed secs)) :
    Serial s caller key created (schedule ++ [.move i .serve])
      (order ++ [(i, secs)])
      ⟨some ((attempt s secs word).getD word),
        a.threads.set i (.done (attempt s secs word).isSome)⟩ := by
  obtain ⟨hstored, j, hj⟩ : a.shared
        = some (wordAfter s caller key created order)
      ∧ ∃ j, Action.move j (.create created) ∈ schedule := by
    rcases h.stored with ⟨hnone, -⟩ | hsome
    · exact absurd (hnone.symm.trans hword) (by simp)
    · exact hsome
  obtain rfl := Option.some.inj (hword.symm.trans hstored)
  obtain ⟨hadmits, hafter⟩ := serve_callOf hkey created order (i, secs)
  have hlt : i < a.threads.length := (List.getElem?_eq_some_iff.mp hi).1
  -- A request that waits to be served is none of those served.
  have hnew : i ∉ order.map Prod.fst := by
    intro hmem
    obtain ⟨x, hx, rfl⟩ := List.mem_map.mp hmem
    obtain ⟨before, after, hsplit⟩ := List.append_of_mem hx
    have hserved := h.served before x after hsplit
    exact absurd (hi.symm.trans hserved) (by simp)
  refine ⟨Or.inr ⟨?_, j, List.mem_append_left _ hj⟩, ?_, ?_, ?_, ?_, ?_⟩
  · rw [hafter]
  · refine Steps.every_snoc.mpr ⟨?_, ?_⟩
    · intro before x after hsplit
      have hne : i ≠ x.1 := by
        rintro rfl
        exact hnew (List.mem_map_of_mem (by rw [hsplit]; simp))
      show (a.threads.set i _)[x.1]? = _
      rw [List.getElem?_set_ne hne]
      exact h.served before x after hsplit
    · show (a.threads.set i _)[i]? = _
      rw [List.getElem?_set_self hlt, hadmits]
  · intro k b hk
    rw [List.map_append, List.mem_append]
    rcases getElem?_set_cases hk with ⟨rfl, -⟩ | ⟨-, hold⟩
    · exact Or.inr (by simp)
    · exact Or.inl (h.done k b hold)
  · rw [List.map_append, List.nodup_append]
    refine ⟨h.once, by simp, ?_⟩
    rintro k hk l hl rfl
    obtain rfl : k = i := by simpa using hl
    exact hnew hk
  · intro k secs' hk
    rcases getElem?_set_cases hk with ⟨-, hdone⟩ | ⟨-, hold⟩
    · cases hdone
    · exact List.mem_append_left _ (h.timed k secs' hold)
  · intro x hx
    rcases List.mem_append.mp hx with hold | hlast
    · exact List.mem_append_left _ (h.clocks x hold)
    · obtain rfl := List.mem_singleton.mp hlast
      exact List.mem_append_left _ (h.timed i secs hi)

end Serial

/-- Every atomic run is a sequential run, in the order of its servings. -/
theorem serial_of_run {caller : Nat → Call} {key : Bytes}
    (hkey : ∀ i, (caller i).key s.makeKey = .ok key)
    {schedule : List (Action Unit AtomicMove)}
    {a : Sys (Option UInt64) Turn}
    (hrun : (atomic s).run schedule nothing = some a) :
    ∃ created, Serial s caller key created schedule
      (servings s schedule nothing) a := by
  induction schedule using List.reverseRecOn generalizing a with
  | nil =>
      obtain rfl := Option.some.inj hrun
      exact ⟨0, Or.inl ⟨rfl, rfl⟩, Steps.every_nil, by simp [nothing],
        List.nodup_nil, by simp [nothing], by simp [servings]⟩
  | append_singleton schedule x ih =>
      obtain ⟨mid, hmid, hlast⟩ := Program.run_split hrun
      obtain ⟨next, happly, hnext⟩ := Program.run_cons hlast
      obtain rfl := Option.some.inj hnext
      obtain ⟨created, hserial⟩ := ih hmid
      have horder : servings s (schedule ++ [x]) nothing
          = servings s schedule nothing ++ serving mid x := by
        rw [servings_append hmid]
        simp [servings, happly]
      rw [horder]
      cases x with
      | arrive r =>
          obtain rfl := Option.some.inj happly
          rw [show serving mid (.arrive r) = [] from rfl, List.append_nil]
          exact ⟨created, hserial.arrive r⟩
      | move i m =>
          obtain ⟨t, shared, t', ht, hstep, rfl⟩ :=
            Program.apply_move happly
          -- Only a serving adds to the order.
          rcases atomicStep_cases hstep with
            ⟨now, rfl, hnone, rfl, rfl, rfl⟩ | ⟨secs, rfl, rfl, rfl, rfl⟩
            | ⟨secs, old, rfl, hword, rfl, rfl, rfl⟩
          · rw [show serving mid (.move i (.create now)) = [] from rfl,
              List.append_nil]
            exact ⟨now, hserial.create hnone ht now⟩
          · rw [show serving mid (.move i (.clock secs)) = [] from rfl,
              List.append_nil]
            exact ⟨created, hserial.clock ht secs⟩
          · rw [serving, ht]
            exact ⟨created, hserial.serve hkey hword ht⟩

/-- A request that was served is a thread that has arrived. -/
theorem Serial.lt_length {caller : Nat → Call} {key : Bytes}
    {created : UInt32} {schedule : List (Action Unit AtomicMove)}
    {order : List (Nat × UInt32)} {a : Sys (Option UInt64) Turn}
    (h : Serial s caller key created schedule order a)
    {x : Nat × UInt32} (hx : x ∈ order) : x.1 < a.threads.length := by
  obtain ⟨before, after, hsplit⟩ := List.append_of_mem hx
  exact (List.getElem?_eq_some_iff.mp (h.served before x after hsplit)).1

-- ================================================== concurrent requests

/-- The request is over: its response is on its way, or it has thrown. -/
def hasReturned : Phase → Bool
  | .admitted | .rejected => true
  | _ => false

/-- A request that is over is done, with its verdict. -/
theorem turn_of_returned {t : Phase} (h : hasReturned t = true) :
    turn s t = .done (isAdmitted t) := by
  cases t with
  | admitted => rfl
  | rejected => rfl
  | _ => cases h

/-- The concurrent limiter before any request. -/
def unused : Sys Shared Phase := ⟨noBucket, []⟩

/-- A concurrent system, read as an atomic one. -/
def asAtomic (s : TokenBucketSetting) (sys : Sys Shared Phase) :
    Sys (Option UInt64) Turn :=
  ⟨storedWord sys.shared, sys.threads.map (turn s)⟩

section Setting

variable (hcap0 : 0 ≤ s.capacity) (hcap : s.capacity < 2147483648)
variable (hrate0 : 0 ≤ s.refillRate) (hrate : s.refillRate < 2147483648)
include hcap0 hcap hrate0 hrate

/-- The refinement: the concurrent limiter, read as the atomic one. -/
def refinement : Refinement (program s) (atomic s) Becomes where
  shared := storedWord
  thread := turn s
  Inv := Inv s
  start _ := rfl
  arrive _ hinv := inv_arrive hinv
  keep hinv ht hstep := inv_move hcap0 hcap hrate0 hrate hinv ht hstep
  move hinv ht hstep := turn_step hinv ht hstep

/-- Nobody has asked, and nothing is wrong. -/
theorem inv_unused : Inv s unused :=
  inv_of_reach hcap0 hcap hrate0 hrate .start

/-- Every schedule of concurrent requests carries one of the atomic
limiter along: each request takes its steps at moves of its own, and at
every point of the schedule the word and every request are what the
atomic limiter has. -/
theorem refines_atomic {schedule : List (Action Unit Move)}
    {sys : Sys Shared Phase}
    (hrun : (program s).run schedule unused = some sys) :
    ∃ atomicSchedule : List (Action Unit AtomicMove),
      Carries Becomes schedule atomicSchedule
        ∧ (atomic s).run atomicSchedule nothing = some (asAtomic s sys)
        ∧ ∀ before after mid, schedule = before ++ after →
            (program s).run before unused = some mid →
            ∃ before' after', atomicSchedule = before' ++ after'
              ∧ (atomic s).run before' nothing
                = some (asAtomic s mid) :=
  (refinement hcap0 hcap hrate0 hrate).run
    (inv_unused hcap0 hcap hrate0 hrate) hrun

end Setting

/-- The race is a run of the atomic limiter. -/
theorem refines_atomic_race :
    ∃ atomicSchedule : List (Action Unit AtomicMove),
      Carries Becomes race atomicSchedule
        ∧ (atomic { capacity := 1, refillRate := 1 }).run atomicSchedule
            nothing
          = some ⟨some 5, [.done false, .done true]⟩ := by
  obtain ⟨atomicSchedule, hcarries, hatomic, -⟩ := refines_atomic
    (s := { capacity := 1, refillRate := 1 }) (by decide) (by decide)
    (by decide) (by decide) race_runs
  exact ⟨atomicSchedule, hcarries, hatomic⟩

section Setting

variable (hcap0 : 0 ≤ s.capacity) (hcap : s.capacity < 2147483648)
variable (hrate0 : 0 ≤ s.refillRate) (hrate : s.refillRate < 2147483648)
include hcap0 hcap hrate0 hrate

/-- Whatever the interleaving, the requests that are over can be put in
an order in which the sequential limiter, serving one after the other
with the clocks they read, gives each the verdict it got and leaves the
word that is stored. The order keeps to time: at every point of the
schedule, a request that is over stands before every request that has
not arrived. -/
theorem linearizable {caller : Nat → Call} {key : Bytes}
    (hkey : ∀ i, (caller i).key s.makeKey = .ok key)
    {schedule : List (Action Unit Move)} {sys : Sys Shared Phase}
    (hrun : (program s).run schedule unused = some sys) :
    ∃ (created : UInt32) (order : List (Nat × UInt32)),
      (order.map Prod.fst).Nodup
        ∧ (∀ x ∈ order, Action.move x.1 (.clock x.2) ∈ schedule)
        ∧ (∀ i t, sys.threads[i]? = some t → hasReturned t = true →
            i ∈ order.map Prod.fst)
        ∧ Steps.Every (fun before x => ∀ t, sys.threads[x.1]? = some t →
            hasReturned t = true →
            isAdmitted t = admits s caller created before x) order
        ∧ (∀ b ∈ sys.shared.buckets,
            b.word = wordAfter s caller key created order
              ∧ ∃ j, Action.move j (.emplace created) ∈ schedule)
        ∧ ∀ before after mid, schedule = before ++ after →
            (program s).run before unused = some mid →
            ∃ earlier later, order = earlier ++ later
              ∧ (∀ i t, mid.threads[i]? = some t → hasReturned t = true →
                  i ∈ earlier.map Prod.fst)
              ∧ ∀ x ∈ earlier, x.1 < mid.threads.length := by
  have hread : ∀ (sys : Sys Shared Phase) {i : Nat} {t : Phase},
      sys.threads[i]? = some t →
        (asAtomic s sys).threads[i]? = some (turn s t) := by
    intro sys i t ht
    rw [asAtomic, List.getElem?_map, ht, Option.map_some]
  -- The atomic run that is carried along is serial in the order of its
  -- servings.
  obtain ⟨atomicSchedule, hcarries, hatomic, hprefix⟩ :=
    (refinement hcap0 hcap hrate0 hrate).run
      (inv_unused hcap0 hcap hrate0 hrate) hrun
  obtain ⟨created, hserial⟩ := serial_of_run hkey hatomic
  refine ⟨created, servings s atomicSchedule nothing, hserial.once,
    ?_, ?_, ?_, ?_, ?_⟩
  · intro x hx
    obtain ⟨a, hbecomes, hmem⟩ := hcarries.mem (hserial.clocks x hx)
    cases hbecomes
    exact hmem
  · intro i t ht hover
    exact hserial.done i _ (turn_of_returned (s := s) hover ▸ hread sys ht)
  · intro before x after hsplit t ht hover
    have hserved := hserial.served before x after hsplit
    have hturn := hread sys ht
    rw [turn_of_returned hover] at hturn
    exact Turn.done.inj
      (Option.some.inj (hturn.symm.trans hserved))
  · intro b hb
    obtain ⟨p, hp⟩ := List.mem_iff_getElem?.mp hb
    have hinv := inv_of_reach hcap0 hcap hrate0 hrate
      (Program.Reach.run .start hrun)
    have hword := storedWord_of_bucket hinv.stored hp
    rcases hserial.stored with ⟨hnone, -⟩ | ⟨hsome, j, hj⟩
    · exact absurd (hword.symm.trans hnone) (by simp)
    · refine ⟨Option.some.inj (hword.symm.trans hsome), j, ?_⟩
      obtain ⟨a, hbecomes, hmem⟩ := hcarries.mem hj
      cases hbecomes
      exact hmem
  · intro before after mid hsplit hmid
    -- Its beginning is serial too, and the order is its order and more.
    obtain ⟨before', after', rfl, hbefore⟩ :=
      hprefix before after mid hsplit hmid
    obtain ⟨created', hearlier⟩ := serial_of_run hkey hbefore
    refine ⟨servings s before' nothing,
      servings s after' (asAtomic s mid), ?_, ?_, ?_⟩
    · exact servings_append hbefore after'
    · intro i t ht hover
      exact hearlier.done i _
        (turn_of_returned (s := s) hover ▸ hread mid ht)
    · intro x hx
      have hlt := hearlier.lt_length hx
      rwa [show ((refinement hcap0 hcap hrate0 hrate).sys mid).threads
        = mid.threads.map (turn s) from rfl, List.length_map] at hlt

end Setting

/-- The order of the race. -/
theorem linearizable_race :
    ∃ (created : UInt32) (order : List (Nat × UInt32)),
      (order.map Prod.fst).Nodup
        ∧ 0 ∈ order.map Prod.fst ∧ 1 ∈ order.map Prod.fst
        ∧ 5 = wordAfter { capacity := 1, refillRate := 1 }
            (fun _ => { ip := bytes "10.0.0.1" }) (bytes "10.0.0.1")
            created order := by
  have hkey : ∀ i : Nat, Call.key .ip
      ((fun _ => { ip := bytes "10.0.0.1" } : Nat → Call) i)
        = .ok (bytes "10.0.0.1") := fun _ => rfl
  obtain ⟨created, order, honce, -, hover, -, hword, -⟩ := linearizable
    (s := { capacity := 1, refillRate := 1 }) (by decide) (by decide)
    (by decide) (by decide) hkey race_runs
  exact ⟨created, order, honce, hover 0 .rejected rfl rfl,
    hover 1 .admitted rfl rfl, (hword ⟨5, 5⟩ (by decide)).1⟩

end TokenBucket

end CgiWebServer
