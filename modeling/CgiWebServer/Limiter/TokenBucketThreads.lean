/-
Concurrent requests with one key, from `findBucket` to the end of the
loop, as threads over what the limiter keeps for the key.

`findBucket` looks the key up without the lock, takes the lock, looks it
up again and emplaces a full bucket if it is still missing; the lock is
let go as the function returns. `process` then reads the clock, loads
the word and runs the loop, one exchange a step. Every clock reading is
whatever its move says, so requests may read it in any order.
-/
import CgiWebServer.Lib.Interleave
import CgiWebServer.Limiter.TokenBucket

namespace CgiWebServer

namespace TokenBucket

open Interleave

/-- A `Bucket`. `createdAt` is ghost: the stamp it was created with. -/
structure Bucket where
  word : UInt64
  createdAt : UInt32
  deriving DecidableEq, Repr

namespace Bucket

/-- The stored tokens. -/
def tokens (b : Bucket) : Nat := (upper b.word).toNat

/-- The stored refill stamp. -/
def stamp (b : Bucket) : Nat := (lower b.word).toNat

/-- The creation stamp, as a number. -/
def creation (b : Bucket) : Nat := b.createdAt.toNat

end Bucket

/-- What the limiter keeps for the key: the buckets ever created for it,
the map's entry (which of them, if any) and `buckets_mutex`. -/
structure Shared where
  buckets : List Bucket
  entry : Option Nat
  locked : Bool
  deriving DecidableEq, Repr

/-- Where a request is; a bucket is named by its place among those
created. -/
inductive Phase
  | fresh
  | missed
  | locked
  | absent
  | holding (bucket : Nat)
  | found (bucket : Nat)
  | timed (bucket : Nat) (secs : UInt32)
  | looping (bucket : Nat) (secs : UInt32) (old : UInt64)
  | admitted
  | rejected
  deriving DecidableEq, Repr

/-- An atomic step of a request. -/
inductive Move
  | lookup
  | lock
  | lookupLocked
  | emplace (now : UInt32)
  | unlock
  | clock (secs : UInt32)
  | load
  | exchange (spurious : Bool)
  deriving DecidableEq, Repr

/-- A full bucket, stamped now. -/
def created (s : TokenBucketSetting) (now : UInt32) : Bucket :=
  { word := newBucket s now, createdAt := now }

/-- A step of one request. The loop goes round when the exchange fails
(`while(!… compare_exchange_weak(…))`). -/
def step (s : TokenBucketSetting) :
    Move → Shared → Phase → Option (Shared × Phase)
  | .lookup, m, .fresh =>
      match m.entry with
      | some p => some (m, .found p)
      | none => some (m, .missed)
  | .lock, m, .missed =>
      if m.locked then none else some ({ m with locked := true }, .locked)
  | .lookupLocked, m, .locked =>
      match m.entry with
      | some p => some (m, .holding p)
      | none => some (m, .absent)
  | .emplace now, m, .absent =>
      some ({ m with buckets := m.buckets ++ [created s now],
                     entry := some m.buckets.length },
        .holding m.buckets.length)
  | .unlock, m, .holding p => some ({ m with locked := false }, .found p)
  | .clock secs, m, .found p => some (m, .timed p secs)
  | .load, m, .timed p secs =>
      match m.buckets[p]? with
      | some b => some (m, .looping p secs b.word)
      | none => none
  | .exchange spurious, m, .looping p secs old =>
      match m.buckets[p]? with
      | none => none
      | some b =>
          match attempt s secs old with
          | none => some (m, .rejected)
          | some desired =>
              let (word', x) :=
                compareExchangeWeak b.word old desired spurious
              let m' : Shared :=
                { m with buckets := m.buckets.set p { b with word := word' } }
              match exchangeTurn false old desired x with
              | .round old' => some (m', .looping p secs old')
              | .left _ => some (m', .admitted)
  | _, _, _ => none

/-- The requests; one arrives with nothing but its key. -/
def program (s : TokenBucketSetting) : Program Shared Phase Unit Move where
  start _ := .fresh
  step := step s

/-- No bucket, and the lock free. -/
def noBucket : Shared := { buckets := [], entry := none, locked := false }

/-- What an exchange can do at a bucket: the body throws at the word
expected, the exchange reads the word stored and the loop goes round, or
the word stored is the one expected and is replaced. -/
inductive ExchangeStep (s : TokenBucketSetting) (m : Shared) (p : Nat)
    (secs : UInt32) (old : UInt64) : Shared → Phase → Prop
  | rejected (hthrows : attempt s secs old = none) :
      ExchangeStep s m p secs old m .rejected
  | round {b : Bucket} {desired : UInt64} (hb : m.buckets[p]? = some b)
      (hattempt : attempt s secs old = some desired) :
      ExchangeStep s m p secs old m (.looping p secs b.word)
  | stored {b : Bucket} {desired : UInt64} (hb : m.buckets[p]? = some b)
      (hold : b.word = old) (hattempt : attempt s secs old = some desired) :
      ExchangeStep s m p secs old
        { m with buckets := m.buckets.set p { b with word := desired } }
        .admitted

/-- An exchange does no other step. -/
theorem exchangeStep_of {s : TokenBucketSetting} {spurious : Bool}
    {m m' : Shared} {p : Nat} {secs : UInt32} {old : UInt64} {t' : Phase}
    (hstep : step s (.exchange spurious) m (.looping p secs old)
      = some (m', t')) :
    ExchangeStep s m p secs old m' t' := by
  simp only [step] at hstep
  cases hb : m.buckets[p]? with
  | none =>
      rw [hb] at hstep
      exact absurd hstep (by simp)
  | some b =>
      cases hattempt : attempt s secs old with
      | none =>
          simp only [hb, hattempt, Option.some.injEq, Prod.mk.injEq]
            at hstep
          obtain ⟨rfl, rfl⟩ := hstep
          exact .rejected hattempt
      | some desired =>
          by_cases hstores : b.word = old ∧ spurious = false
          · simp only [hb, hattempt, compareExchangeWeak, if_pos hstores,
              exchangeTurn, Bool.true_eq_false, if_false,
              Option.some.injEq, Prod.mk.injEq] at hstep
            obtain ⟨rfl, rfl⟩ := hstep
            exact .stored hb hstores.1 hattempt
          -- A failed exchange writes back the word it has found: the map is
          -- what it was, and only the loop's own copy changes.
          · have hsame : m.buckets.set p { b with word := b.word }
                = m.buckets := by
              obtain ⟨hlt, hget⟩ := List.getElem?_eq_some_iff.mp hb
              rw [← hget]
              exact List.set_getElem_self hlt
            simp only [hb, hattempt, compareExchangeWeak, if_neg hstores,
              exchangeTurn, if_true, Bool.false_eq_true, if_false, hsame,
              Option.some.injEq, Prod.mk.injEq] at hstep
            obtain ⟨rfl, rfl⟩ := hstep
            exact .round hb hattempt

/-- A step that changes nothing shared: it looks the entry up, takes the
time, loads the word, or goes round or throws in the loop. -/
inductive Looks (m : Shared) : Phase → Phase → Prop
  | found {p : Nat} : m.entry = some p → Looks m .fresh (.found p)
  | missed : m.entry = none → Looks m .fresh .missed
  | holding {p : Nat} : m.entry = some p → Looks m .locked (.holding p)
  | absent : m.entry = none → Looks m .locked .absent
  | timed {p : Nat} (secs : UInt32) : Looks m (.found p) (.timed p secs)
  | loaded {p : Nat} {secs : UInt32} (old : UInt64) :
      Looks m (.timed p secs) (.looping p secs old)
  | round {p : Nat} {secs : UInt32} {old : UInt64} (old' : UInt64) :
      Looks m (.looping p secs old) (.looping p secs old')
  | rejected {p : Nat} {secs : UInt32} {old : UInt64} :
      Looks m (.looping p secs old) .rejected

/-- What a step can do: it looks, it takes the lock, it emplaces a new
bucket, it frees the lock, or it stores in a bucket. -/
inductive RequestStep (s : TokenBucketSetting) (m : Shared) :
    Phase → Shared → Phase → Prop
  | looks {t t' : Phase} (h : Looks m t t') : RequestStep s m t m t'
  | lock (h : m.locked = false) :
      RequestStep s m .missed { m with locked := true } .locked
  | emplace (now : UInt32) :
      RequestStep s m .absent
        { m with
          buckets := m.buckets ++ [created s now]
          entry := some m.buckets.length }
        (.holding m.buckets.length)
  | unlock {p : Nat} :
      RequestStep s m (.holding p) { m with locked := false } (.found p)
  | store {p : Nat} {secs : UInt32} {old desired : UInt64} {b : Bucket}
      (hb : m.buckets[p]? = some b)
      (hattempt : attempt s secs b.word = some desired) :
      RequestStep s m (.looping p secs old)
        { m with buckets := m.buckets.set p { b with word := desired } }
        .admitted

/-- A request does no other step. -/
theorem requestStep_of {s : TokenBucketSetting} {a : Move} {m m' : Shared}
    {t t' : Phase} (hstep : step s a m t = some (m', t')) :
    RequestStep s m t m' t' := by
  cases a with
  | lookup =>
      cases t with
      | fresh =>
          simp only [step] at hstep
          cases hentry : m.entry with
          | some p =>
              rw [hentry] at hstep
              cases hstep
              exact .looks (.found hentry)
          | none =>
              rw [hentry] at hstep
              cases hstep
              exact .looks (.missed hentry)
      | _ => cases hstep
  | lock =>
      cases t with
      | missed =>
          simp only [step] at hstep
          cases hfree : m.locked with
          | true =>
              rw [hfree] at hstep
              cases hstep
          | false =>
              rw [hfree] at hstep
              cases hstep
              exact .lock hfree
      | _ => cases hstep
  | lookupLocked =>
      cases t with
      | locked =>
          simp only [step] at hstep
          cases hentry : m.entry with
          | some p =>
              rw [hentry] at hstep
              cases hstep
              exact .looks (.holding hentry)
          | none =>
              rw [hentry] at hstep
              cases hstep
              exact .looks (.absent hentry)
      | _ => cases hstep
  | emplace now =>
      cases t with
      | absent =>
          cases hstep
          exact .emplace now
      | _ => cases hstep
  | unlock =>
      cases t with
      | holding p =>
          cases hstep
          exact .unlock
      | _ => cases hstep
  | clock secs =>
      cases t with
      | found p =>
          cases hstep
          exact .looks (.timed secs)
      | _ => cases hstep
  | load =>
      cases t with
      | timed p secs =>
          simp only [step] at hstep
          cases hb : m.buckets[p]? with
          | none =>
              rw [hb] at hstep
              cases hstep
          | some b =>
              rw [hb] at hstep
              cases hstep
              exact .looks (.loaded b.word)
      | _ => cases hstep
  | exchange spurious =>
      cases t with
      | looping p secs old =>
          cases exchangeStep_of hstep with
          | rejected hthrows => exact .looks .rejected
          | @round b desired hb hattempt => exact .looks (.round b.word)
          | stored hb hold hattempt =>
              exact .store hb (hold.symm ▸ hattempt)
      | _ => cases hstep

/-- What a step does to the buckets: nothing, or it emplaces a new one,
or it stores in one of them. -/
theorem step_buckets {s : TokenBucketSetting} {a : Move} {m m' : Shared}
    {t t' : Phase} (hstep : step s a m t = some (m', t')) :
    m'.buckets = m.buckets
      ∨ (∃ now, m'.buckets = m.buckets ++ [created s now])
      ∨ (∃ p b secs desired, m.buckets[p]? = some b
          ∧ attempt s secs b.word = some desired
          ∧ m'.buckets = m.buckets.set p { b with word := desired }) := by
  cases requestStep_of hstep with
  | looks => exact Or.inl rfl
  | lock => exact Or.inl rfl
  | emplace now => exact Or.inr (Or.inl ⟨now, rfl⟩)
  | unlock => exact Or.inl rfl
  | store hb hattempt =>
      exact Or.inr (Or.inr ⟨_, _, _, _, hb, hattempt, rfl⟩)

end TokenBucket

end CgiWebServer
