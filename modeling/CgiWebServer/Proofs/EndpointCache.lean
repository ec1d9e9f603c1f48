/-
Lookups of endpoints, against those of a server that has just started.

A lookup that finds a file under `public` puts a default endpoint into
the table, where it stays. So an answer is that of a fresh table as long
as that one finds something, and otherwise that of the first lookup that
did (`lookups_remember`): an endpoint whose file has been removed is
still answered for.

What a table holds behind a sequence of lookups is what it held before
and the default endpoints of the keys that were found (`Caches`).
-/
import CgiWebServer.Lib.Steps
import CgiWebServer.Proofs.Gate

namespace CgiWebServer

namespace EndpointCache

-- ================================================================ the steps

/-- A step: a lookup, or the files are others from now on. -/
inductive Step
  | lookup (endpoint : Bytes)
  | files (fileExists : Bytes → Bool)

/-- What a caller of `getEndpoint` sees: the exception, or the endpoint
the pointer leads to. -/
abbrev Outcome := Except Exn (Option Endpoint)

/-- A lookup: its outcome, and the table it leaves. -/
def lookup (fileExists : Bytes → Bool) (r : Router) (endpoint : Bytes) :
    Outcome × Router :=
  match r.getEndpoint fileExists endpoint with
  | .error e => (.error e, r)
  | .ok (p, r') => (.ok (r'.deref p), r')

/-- A lookup that was made: its key, the files at that moment, and its
outcome. -/
structure Answer where
  endpoint : Bytes
  fileExists : Bytes → Bool
  outcome : Outcome

/-- The lookups of a sequence of steps. -/
def answers : Router → (Bytes → Bool) → List Step → List Answer
  | _, _, [] => []
  | r, _, .files fileExists :: rest => answers r fileExists rest
  | r, fileExists, .lookup endpoint :: rest =>
      let (outcome, r') := lookup fileExists r endpoint
      ⟨endpoint, fileExists, outcome⟩ :: answers r' fileExists rest

section Table

variable (r : Router)

/-- What a table that has just been loaded answers. -/
def fresh (fileExists : Bytes → Bool) (endpoint : Bytes) : Outcome :=
  (lookup fileExists r endpoint).1

/-- A lookup of a key at a moment at which a fresh table finds it. -/
def finds (endpoint : Bytes) (a : Answer) : Bool :=
  a.endpoint = endpoint ∧ (fresh r a.fileExists a.endpoint).isOk

/-- The answer of the first lookup of the key, up to this one, at whose
moment a fresh table finds it, and if there is none of a fresh table
now. -/
def remembered (before : List Answer) (a : Answer) : Outcome :=
  match (before ++ [a]).find? (finds r a.endpoint) with
  | some b => fresh r b.fileExists b.endpoint
  | none => fresh r a.fileExists a.endpoint

end Table

-- =============================================================== one lookup

variable {r r₀ : Router} {fileExists : Bytes → Bool} {endpoint : Bytes}

/-- The endpoint a lookup adds. -/
def defaultOf (endpoint : Bytes) : Endpoint :=
  (({} : Endpoint).addMethod
    { m := .get, accessRole := viewerRole, resource := publicDir ++ endpoint,
      handler := some .get }).addMethod
    { m := .head, accessRole := viewerRole,
      resource := publicDir ++ endpoint, handler := some .head }

theorem defaultEndpoint_eq (endpoint : Bytes) :
    Router.defaultEndpoint endpoint = .ok (defaultOf endpoint) := rfl

/-- A key that is in the table. -/
theorem lookup_of_mem (h : endpoint ∈ r.endpoints) :
    lookup fileExists r endpoint = (.ok (r.deref endpoint), r) := by
  unfold lookup Router.getEndpoint
  rw [if_pos h]
  rfl

/-- One that is not, but whose file is there. -/
theorem lookup_of_file (h : endpoint ∉ r.endpoints)
    (hfile : fileExists (cStr (publicDir ++ endpoint)) = true) :
    lookup fileExists r endpoint
      = (.ok (some (defaultOf endpoint)),
          { r with endpoints :=
              r.endpoints.insert endpoint (defaultOf endpoint) }) := by
  unfold lookup Router.getEndpoint
  rw [if_neg h, if_neg (by rw [hfile]; decide), defaultEndpoint_eq]
  have hderef : (r.endpoints.insert endpoint (defaultOf endpoint)).lookup
      endpoint = some (defaultOf endpoint) := AList.lookup_insert _
  exact Prod.ext (congrArg Except.ok hderef) rfl

/-- One that is nowhere. -/
theorem lookup_of_none (h : endpoint ∉ r.endpoints)
    (hfile : fileExists (cStr (publicDir ++ endpoint)) = false) :
    ∃ e, lookup fileExists r endpoint = (.error e, r)
      ∧ e.status = .notFound := by
  unfold lookup Router.getEndpoint
  rw [if_neg h, if_pos (by rw [hfile]; decide)]
  exact ⟨_, rfl, rfl⟩

/-- What a table refuses, it refuses as not found. -/
theorem status_of_fresh_error {e : Exn}
    (h : fresh r fileExists endpoint = .error e) : e.status = .notFound := by
  by_cases hmem : endpoint ∈ r.endpoints
  · rw [fresh, lookup_of_mem hmem] at h
    cases h
  · cases hfile : fileExists (cStr (publicDir ++ endpoint)) with
    | true =>
        rw [fresh, lookup_of_file hmem hfile] at h
        cases h
    | false =>
        obtain ⟨e', he', hstatus⟩ := lookup_of_none hmem hfile
        rw [fresh, he'] at h
        rw [← Except.error.inj h]
        exact hstatus

/-- A fresh table that finds a key finds the same under it always. -/
theorem fresh_ok_unique {files files' : Bytes → Bool}
    {x y : Option Endpoint} (hx : fresh r files endpoint = .ok x)
    (hy : fresh r files' endpoint = .ok y) : x = y := by
  unfold fresh at hx hy
  by_cases hmem : endpoint ∈ r.endpoints
  · rw [lookup_of_mem hmem] at hx hy
    exact (Except.ok.inj hx).symm.trans (Except.ok.inj hy)
  · have hdefault : ∀ {f : Bytes → Bool} {z : Option Endpoint},
        (lookup f r endpoint).1 = .ok z → z = some (defaultOf endpoint) := by
      intro f z hz
      cases hfile : f (cStr (publicDir ++ endpoint)) with
      | true =>
          rw [lookup_of_file hmem hfile] at hz
          exact (Except.ok.inj hz).symm
      | false =>
          obtain ⟨e, he, -⟩ := lookup_of_none hmem hfile
          rw [he] at hz
          cases hz
    exact (hdefault hx).trans (hdefault hy).symm

-- =============================================================== the memory

section Memory

variable {before : List Answer} {a b : Answer}

theorem finds_iff :
    finds r endpoint b = true
      ↔ b.endpoint = endpoint ∧ ∃ x, fresh r b.fileExists b.endpoint = .ok x
    := by
  rw [finds, decide_eq_true_iff]
  cases fresh r b.fileExists b.endpoint with
  | ok x => simp [Except.isOk, Except.toBool]
  | error e => simp [Except.isOk, Except.toBool]

/-- A key that was found is remembered as it was found. -/
theorem remembered_of_found (hb : b ∈ before ++ [a])
    (hkey : b.endpoint = a.endpoint) {x : Option Endpoint}
    (hx : fresh r b.fileExists b.endpoint = .ok x) :
    remembered r before a = .ok x := by
  unfold remembered
  cases hfind : (before ++ [a]).find? (finds r a.endpoint) with
  | none =>
      have hnone := List.find?_eq_none.mp hfind b hb
      exact absurd (finds_iff.mpr ⟨hkey, x, hx⟩) hnone
  | some c =>
      obtain ⟨hckey, y, hy⟩ := finds_iff.mp (List.find?_some hfind)
      rw [hkey] at hx
      have hsame : y = x := by
        rw [hckey] at hy
        exact fresh_ok_unique hy hx
      exact hsame ▸ hy

/-- One that was not is looked for now. -/
theorem remembered_of_missed
    (h : ∀ b ∈ before, finds r a.endpoint b = false) :
    remembered r before a = fresh r a.fileExists a.endpoint := by
  have hnone : before.find? (finds r a.endpoint) = none :=
    List.find?_eq_none.mpr fun b hb => by rw [h b hb]; decide
  unfold remembered
  rw [List.find?_append, hnone, Option.none_or]
  cases hfind : [a].find? (finds r a.endpoint) with
  | none => rfl
  | some c =>
      obtain rfl := List.mem_singleton.mp (List.mem_of_find?_eq_some hfind)
      rfl

end Memory

-- ============================================================ the invariant

/-- The table behind some lookups: what was there, and the default
endpoints of the keys that were found. -/
def Caches (r₀ : Router) (before : List Answer) (r : Router) : Prop :=
  ∀ k, r.endpoints.lookup k
    = if k ∈ r₀.endpoints then r₀.endpoints.lookup k
      else if before.any (finds r₀ k) then some (defaultOf k)
      else none

theorem caches_nil (r₀ : Router) : Caches r₀ [] r₀ := by
  intro k
  by_cases hk : k ∈ r₀.endpoints
  · rw [if_pos hk]
  · rw [if_neg hk, List.any_nil, if_neg Bool.false_ne_true]
    exact AList.lookup_eq_none.mpr hk

theorem Caches.mem_iff {before : List Answer} (h : Caches r₀ before r)
    (k : Bytes) :
    k ∈ r.endpoints
      ↔ k ∈ r₀.endpoints ∨ before.any (finds r₀ k) = true := by
  rw [← AList.lookup_isSome, h k]
  by_cases hk : k ∈ r₀.endpoints
  · rw [if_pos hk]
    exact iff_of_true (AList.lookup_isSome.mpr hk) (Or.inl hk)
  · rw [if_neg hk]
    by_cases hfound : before.any (finds r₀ k) = true
    · rw [if_pos hfound]
      exact iff_of_true rfl (Or.inr hfound)
    · rw [if_neg hfound]
      exact iff_of_false (by decide) (by rintro (h' | h') <;> contradiction)

/-- A key's own lookup is all that may add it. -/
theorem any_finds_snoc {before : List Answer} {a : Answer} {k : Bytes} :
    (before ++ [a]).any (finds r₀ k)
      = (before.any (finds r₀ k)
          || decide (a.endpoint = k)
            && (fresh r₀ a.fileExists a.endpoint).isOk) := by
  rw [List.any_append]
  congr 1
  simp [finds]

/-- What a lookup must keep: it answers what is remembered, and leaves a
table that remembers it too. -/
def KeepsCache (r₀ : Router) (before : List Answer) (a : Answer)
    (r' : Router) : Prop :=
  a.outcome = remembered r₀ before a ∧ Caches r₀ (before ++ [a]) r'

section Lookup

variable {before : List Answer}

/-- The table may stay as it is unless a key is found for the first
time. -/
theorem Caches.stays (h : Caches r₀ before r) {a : Answer}
    (hnothing : a.endpoint ∈ r₀.endpoints
      ∨ before.any (finds r₀ a.endpoint) = true
      ∨ (fresh r₀ a.fileExists a.endpoint).isOk = false) :
    Caches r₀ (before ++ [a]) r := by
  intro k
  rw [h k, any_finds_snoc]
  by_cases hkey : a.endpoint = k
  · subst hkey
    rcases hnothing with hmem | hfound | hmissing
    · rw [if_pos hmem, if_pos hmem]
    · rw [hfound, Bool.true_or]
    · rw [hmissing, Bool.and_false, Bool.or_false]
  · rw [decide_eq_false hkey, Bool.false_and, Bool.or_false]

/-- A key of the loaded table is there before and behind any lookup. -/
theorem lookup_configured (h : Caches r₀ before r)
    (hconfigured : endpoint ∈ r₀.endpoints) :
    KeepsCache r₀ before
      ⟨endpoint, fileExists, (lookup fileExists r endpoint).1⟩
      (lookup fileExists r endpoint).2 := by
  have hmem := (h.mem_iff endpoint).mpr (Or.inl hconfigured)
  have hderef : r.deref endpoint = r₀.deref endpoint := by
    have hentry := h endpoint
    rw [if_pos hconfigured] at hentry
    exact hentry
  rw [lookup_of_mem hmem]
  refine ⟨?_, h.stays (Or.inl hconfigured)⟩
  refine (remembered_of_found (b := ⟨endpoint, fileExists, _⟩)
    (List.mem_append_right _ (List.mem_singleton.mpr rfl)) rfl ?_).symm
  rw [fresh, lookup_of_mem hconfigured, hderef]

/-- So is one that was found before. -/
theorem lookup_found (h : Caches r₀ before r)
    (hconfigured : endpoint ∉ r₀.endpoints)
    (hfound : before.any (finds r₀ endpoint) = true) :
    KeepsCache r₀ before
      ⟨endpoint, fileExists, (lookup fileExists r endpoint).1⟩
      (lookup fileExists r endpoint).2 := by
  have hmem := (h.mem_iff endpoint).mpr (Or.inr hfound)
  have hentry := h endpoint
  rw [if_neg hconfigured, if_pos hfound] at hentry
  obtain ⟨b, hb, hfinds⟩ := List.any_eq_true.mp hfound
  obtain ⟨hkey, x, hx⟩ := finds_iff.mp hfinds
  rw [lookup_of_mem hmem]
  refine ⟨?_, h.stays (Or.inr (Or.inl hfound))⟩
  rw [remembered_of_found (List.mem_append_left _ hb) hkey hx]
  -- What is remembered is what the table got then.
  have hdefault : x = some (defaultOf endpoint) := by
    rw [hkey] at hx
    have hfile : fresh r₀ (fun _ => true) endpoint
        = .ok (some (defaultOf endpoint)) := by
      rw [fresh, lookup_of_file hconfigured rfl]
    exact fresh_ok_unique hx hfile
  rw [hdefault]
  exact congrArg Except.ok hentry

/-- One that is found for the first time is put into the table. -/
theorem lookup_new (h : Caches r₀ before r)
    (hconfigured : endpoint ∉ r₀.endpoints) (hnew : endpoint ∉ r.endpoints)
    (hmissed : ∀ b ∈ before, finds r₀ endpoint b = false)
    (hfile : fileExists (cStr (publicDir ++ endpoint)) = true) :
    KeepsCache r₀ before
      ⟨endpoint, fileExists, (lookup fileExists r endpoint).1⟩
      (lookup fileExists r endpoint).2 := by
  rw [lookup_of_file hnew hfile]
  constructor
  · rw [remembered_of_missed hmissed, fresh,
      lookup_of_file hconfigured hfile]
  · intro k
    rw [any_finds_snoc, fresh, lookup_of_file hconfigured hfile]
    by_cases hk : endpoint = k
    · subst hk
      rw [if_neg hconfigured, decide_eq_true rfl]
      simp only [Except.isOk, Except.toBool, Bool.and_self, Bool.or_true,
        if_true]
      exact AList.lookup_insert _
    · rw [decide_eq_false hk, Bool.false_and, Bool.or_false, ← h k]
      exact AList.lookup_insert_ne (Ne.symm hk)

/-- One that is nowhere is refused, as a fresh table does. -/
theorem lookup_nowhere (h : Caches r₀ before r)
    (hconfigured : endpoint ∉ r₀.endpoints) (hnew : endpoint ∉ r.endpoints)
    (hmissed : ∀ b ∈ before, finds r₀ endpoint b = false)
    (hfile : fileExists (cStr (publicDir ++ endpoint)) = false) :
    KeepsCache r₀ before
      ⟨endpoint, fileExists, (lookup fileExists r endpoint).1⟩
      (lookup fileExists r endpoint).2 := by
  have hsame : lookup fileExists r endpoint
      = (fresh r₀ fileExists endpoint, r) := by
    unfold fresh lookup Router.getEndpoint
    rw [if_neg hnew, if_neg hconfigured, if_pos (by rw [hfile]; decide),
      if_pos (by rw [hfile]; decide)]
    rfl
  obtain ⟨e, he, -⟩ := lookup_of_none hconfigured hfile
  have hmissing : (fresh r₀ fileExists endpoint).isOk = false := by
    rw [fresh, he]
    rfl
  rw [hsame]
  refine ⟨?_, h.stays (Or.inr (Or.inr hmissing))⟩
  rw [remembered_of_missed hmissed]

/-- Every lookup keeps the cache. -/
theorem caches_lookup (h : Caches r₀ before r) (fileExists : Bytes → Bool)
    (endpoint : Bytes) :
    KeepsCache r₀ before
      ⟨endpoint, fileExists, (lookup fileExists r endpoint).1⟩
      (lookup fileExists r endpoint).2 := by
  by_cases hconfigured : endpoint ∈ r₀.endpoints
  · exact lookup_configured h hconfigured
  · by_cases hfound : before.any (finds r₀ endpoint) = true
    · exact lookup_found h hconfigured hfound
    · have hnew : endpoint ∉ r.endpoints := by
        rw [h.mem_iff]
        rintro (h' | h') <;> contradiction
      have hmissed : ∀ b ∈ before, finds r₀ endpoint b = false := by
        intro b hb
        cases hb' : finds r₀ endpoint b with
        | false => rfl
        | true => exact absurd (List.any_eq_true.mpr ⟨b, hb, hb'⟩) hfound
      cases hfile : fileExists (cStr (publicDir ++ endpoint)) with
      | true => exact lookup_new h hconfigured hnew hmissed hfile
      | false => exact lookup_nowhere h hconfigured hnew hmissed hfile

end Lookup

/-- Every lookup of a sequence answers what is remembered. -/
theorem every_answers (steps : List Step) :
    ∀ {before : List Answer} {r : Router} (fileExists : Bytes → Bool),
      Caches r₀ before r → ∀ front a after,
        answers r fileExists steps = front ++ a :: after →
          a.outcome = remembered r₀ (before ++ front) a := by
  induction steps with
  | nil =>
      intro before r fileExists _ front a after hsplit
      cases front <;> cases hsplit
  | cons step rest ih =>
      intro before r fileExists h front a after hsplit
      cases step with
      | files fileExists' => exact ih fileExists' h front a after hsplit
      | lookup endpoint =>
          obtain ⟨hanswer, hnext⟩ := caches_lookup h fileExists endpoint
          cases front with
          | nil =>
              obtain ⟨rfl, -⟩ := List.cons.inj hsplit
              rw [List.append_nil]
              exact hanswer
          | cons first front =>
              obtain ⟨rfl, hrest⟩ := List.cons.inj hsplit
              have hlater := ih fileExists hnext front a after hrest
              rw [List.append_assoc] at hlater
              exact hlater

-- ====================================================== what is remembered

/-- Every lookup answers what is remembered: what a fresh table would
answer now, or, where that one does not find the key, what one would have
answered at the first lookup of the key at which it did. -/
theorem lookups_remember (r : Router) (fileExists : Bytes → Bool)
    (steps : List Step) :
    Steps.Every (fun before a => a.outcome = remembered r before a
        ∧ (∀ x, fresh r a.fileExists a.endpoint = .ok x →
            a.outcome = .ok x)
        ∧ ∀ e, a.outcome = .error e → e.status = .notFound)
      (answers r fileExists steps) := by
  intro before a after hsplit
  have houtcome := every_answers steps fileExists (caches_nil r) before a
    after hsplit
  rw [List.nil_append] at houtcome
  refine ⟨houtcome, fun x hx => ?_, fun e he => ?_⟩
  · rw [houtcome]
    exact remembered_of_found
      (List.mem_append_right _ (List.mem_singleton.mpr rfl)) rfl hx
  · rw [houtcome] at he
    unfold remembered at he
    split at he
    next => exact status_of_fresh_error he
    next => exact status_of_fresh_error he

/-- The cache is transparent: every lookup answers what a fresh table
would answer now. -/
def Transparent (r : Router) (fileExists : Bytes → Bool)
    (steps : List Step) : Prop :=
  Steps.Every (fun _ a => a.outcome = fresh r a.fileExists a.endpoint)
    (answers r fileExists steps)

/-- A file that is looked up, removed, and looked up again. -/
def removedFile : List Step :=
  [.lookup (bytes "/a.txt"), .files fun _ => false, .lookup (bytes "/a.txt")]

/-- The second lookup still finds it. -/
theorem removed_file_found :
    ¬ Transparent Router.initial (fun _ => true) removedFile := by
  intro h
  have hfile : bytes "/a.txt" ∉ Router.initial.endpoints := by decide +kernel
  obtain ⟨e, he, -⟩ : ∃ e, lookup (fun _ => false) Router.initial
      (bytes "/a.txt") = (.error e, Router.initial) ∧ e.status = .notFound :=
    lookup_of_none hfile rfl
  have hfresh : fresh Router.initial (fun _ => false) (bytes "/a.txt")
      = .error e := congrArg Prod.fst he
  have hlast := (h [⟨bytes "/a.txt", fun _ => true, _⟩]
    ⟨bytes "/a.txt", fun _ => false, _⟩ [] rfl).trans hfresh
  have hcached : bytes "/a.txt"
      ∈ (lookup (fun _ => true) Router.initial (bytes "/a.txt")).2.endpoints
    := by decide +kernel
  have hfound := @lookup_of_mem _ (fun _ => false) _ hcached
  cases (congrArg Prod.fst hfound).symm.trans hlast

end EndpointCache

end CgiWebServer
