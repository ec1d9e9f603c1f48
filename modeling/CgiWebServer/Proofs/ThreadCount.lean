/-
The thread count, from the configuration to the workers.

`loadThreads` guards against a count of zero, and `start` subtracts two.
A count of one passes the guard and wraps: the vector is asked for room
for 2⁶⁴ - 1 threads.
-/
import CgiWebServer.Net.Server
import CgiWebServer.Startup.Initialize

namespace CgiWebServer

namespace Threads

/-- The machine grants so many workers. -/
structure Grants (grant : Grant) (workers : Nat) : Prop where
  reserves : grant.reserves workers = true
  creates : ∀ i < workers, grant.creates i = true

/-- A thread count is two more than its workers, as numbers, and `start`
takes it at its word: it reserves and creates the workers, and runs the
`io_context` on one thread more. -/
structure Exact (threadCount : Nat) : Prop where
  workers : workerCount threadCount + 2 = threadCount
  runs : ∀ grant : Grant, Grants grant (threadCount - 2) →
    start grant threadCount
      = .running (threadCount - 2) (threadCount - 2) (threadCount - 1)

-- ================================================================== start

/-- With every thread granted the `for` creates all that are left. -/
theorem spawnWorkers_all {grant : Grant} (reserved : Nat) :
    ∀ (left i : Nat), (∀ j < i + left, grant.creates j = true) →
      spawnWorkers grant reserved left i
        = .running reserved (i + left) (i + left + 1) := by
  intro left
  induction left with
  | zero => exact fun _ _ => rfl
  | succ left ih =>
      intro i hall
      have hhere : grant.creates i = true := hall i (by omega)
      have hshift : i + 1 + left = i + (left + 1) := by omega
      rw [spawnWorkers, if_pos hhere,
        ih (i + 1) fun j hj => hall j (by omega), hshift]

/-- The subtraction is exact from two on, as far as a `std::size_t`
goes. -/
theorem workerCount_of_two_le {n : Nat} (htwo : 2 ≤ n) (hlt : n < 2 ^ 64) :
    workerCount n = n - 2 := by
  have hval : (UInt64.ofNat n).toNat = n := UInt64.toNat_ofNat_of_lt' hlt
  have hle : (2 : UInt64) ≤ UInt64.ofNat n := by
    rw [UInt64.le_iff_toNat_le, hval]
    exact htwo
  rw [workerCount, UInt64.toNat_sub_of_le _ _ hle, hval]
  rfl

theorem exact_of_two_le {n : Nat} (htwo : 2 ≤ n) (hlt : n < 2 ^ 64) :
    Exact n := by
  have hworkers := workerCount_of_two_le htwo hlt
  refine ⟨by omega, fun grant hgrant => ?_⟩
  have hone : n - 2 + 1 = n - 1 := by omega
  unfold start
  rw [hworkers, if_pos hgrant.reserves,
    spawnWorkers_all (n - 2) (n - 2) 0 fun j hj =>
      hgrant.creates j (by omega), Nat.zero_add, hone]

/-- A `std::size_t` is taken at its word exactly from two on. -/
theorem exact_iff {n : Nat} (hlt : n < 2 ^ 64) : Exact n ↔ 2 ≤ n := by
  constructor
  · intro h
    have hsum := h.workers
    omega
  · intro h
    exact exact_of_two_le h hlt

-- ================================================================ loading

/-- The configuration, or the machine in its place, asks for one
thread. -/
def AsksForOne (hardwareConcurrency : UInt32) (serverConfig : XMLElement) :
    Prop :=
  match serverConfig.firstChildElement (bytes "Threads") with
  | none => hardwareConcurrency = 1
  | some threadsEl =>
      digitsVal ((threadsEl.text.getD []).takeWhile isDigit) = 1

/-- What `loadThreads` sets is a `std::size_t`, and not zero. -/
theorem loadThreads_range (hardwareConcurrency : UInt32)
    (serverConfig : XMLElement) :
    1 ≤ loadThreads hardwareConcurrency.toNat serverConfig
      ∧ loadThreads hardwareConcurrency.toNat serverConfig < 2 ^ 64 := by
  have hword : hardwareConcurrency.toNat < 2 ^ 32 :=
    hardwareConcurrency.toNat_lt
  unfold loadThreads
  dsimp only
  split
  · split
    · exact ⟨by decide, by decide⟩
    · omega
  · split
    · exact ⟨by decide, by decide⟩
    next hok =>
      rw [not_or, not_or] at hok
      omega

/-- It sets one exactly where one is asked for. -/
theorem loadThreads_eq_one_iff (hardwareConcurrency : UInt32)
    (serverConfig : XMLElement) :
    loadThreads hardwareConcurrency.toNat serverConfig = 1
      ↔ AsksForOne hardwareConcurrency serverConfig := by
  unfold loadThreads AsksForOne
  dsimp only
  cases serverConfig.firstChildElement (bytes "Threads") with
  | none =>
      have hone : hardwareConcurrency = 1 ↔ hardwareConcurrency.toNat = 1 :=
        UInt32.toNat_inj.symm
      dsimp only
      rw [hone]
      split
      next hzero => rw [hzero]; decide
      next => rfl
  | some threadsEl =>
      dsimp only
      generalize (threadsEl.text.getD []).takeWhile isDigit = digits
      split
      next hbad =>
        refine iff_of_false (by decide) fun hone => ?_
        rcases hbad with hempty | hlarge | hzero
        · rw [List.isEmpty_iff.mp hempty] at hone
          exact absurd hone (by decide)
        · omega
        · omega
      next => rfl

/-- The thread count `loadThreads` sets is taken at its word exactly where
it is not one that is asked for. -/
theorem thread_count_iff (hardwareConcurrency : UInt32)
    (serverConfig : XMLElement) :
    Exact (loadThreads hardwareConcurrency.toNat serverConfig)
      ↔ ¬ AsksForOne hardwareConcurrency serverConfig := by
  obtain ⟨hpos, hlt⟩ := loadThreads_range hardwareConcurrency serverConfig
  rw [exact_iff hlt, ← loadThreads_eq_one_iff]
  omega

/-- A configuration of one thread. -/
def oneThread : XMLElement :=
  .mk (bytes "ServerConfig") []
    [.mk (bytes "Threads") [] [] (some (bytes "1"))]

/-- One thread, on a machine of eight: the workers are 2⁶⁴ - 1. -/
theorem one_thread_wraps :
    ¬ Exact (loadThreads (8 : UInt32).toNat oneThread)
      ∧ workerCount (loadThreads (8 : UInt32).toNat oneThread)
          = 2 ^ 64 - 1 := by
  have hone : loadThreads (8 : UInt32).toNat oneThread = 1 := by decide
  rw [hone]
  exact ⟨fun h => absurd h.workers (by decide), by decide⟩

end Threads

end CgiWebServer
