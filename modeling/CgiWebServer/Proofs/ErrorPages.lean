/-
The error pages that are loaded.

The `while` of `loadErrorPages` goes on with the sibling of the
`ErrorPages` element instead of the page's. So it loads the first page
and leaves, or, where an `ErrorPage` element stands behind `ErrorPages`,
loads that one for ever. The table is the one the document asks for
exactly where the pages behind the first would not change it
(`all_pages_load_iff`).
-/
import CgiWebServer.Startup.Initialize

namespace CgiWebServer

-- =============================================================== the pages

/-- The `ErrorPage` children of `ErrorPages`. -/
def errorPageElements (serverConfig : XMLElement) : List XMLElement :=
  match serverConfig.firstChildElement (bytes "ErrorPages") with
  | none => []
  | some errorPages => errorPages.childElements (bytes "ErrorPage")

/-- The code and the file an element names, if both are there. -/
def configuredPage (errorPg : XMLElement) : Option (Code × Bytes) :=
  let status := codeStrToEnum (errorPg.attributeOf (bytes "code"))
  let file := attributeOrEmpty errorPg "file"
  if status = .notAStatus ∨ file.isEmpty then none else some (status, file)

/-- The file an element names for a code. -/
def namedPage (c : Code) (errorPg : XMLElement) : Option Bytes :=
  match configuredPage errorPg with
  | none => none
  | some (status, file) => if status = c then some file else none

/-- The loop is left, and every code has the page of the last element
that names one for it, or the default page. -/
def AllPagesLoad (serverConfig : XMLElement) : Prop :=
  ∃ fuel router, runErrorPages serverConfig fuel Router.initial = some router
    ∧ ∀ c, router.getErrorPage c
        = Loads.lastWrite (namedPage c) (errorPageElements serverConfig)

/-- There is no page, or none stands behind `ErrorPages` and those behind
the first child would not change what it sets: none of them names a page,
or all that do name the first one's code and the last its file. -/
inductive OnlyFirstCounts (serverConfig : XMLElement) : Prop
  | noPage : errorPageElements serverConfig = [] →
      OnlyFirstCounts serverConfig
  | invalidRest {first : XMLElement} {rest : List XMLElement} :
      errorPageElements serverConfig = first :: rest →
      serverConfig.siblingOfFirst (bytes "ErrorPages") (bytes "ErrorPage")
        = none →
      (∀ later ∈ rest, configuredPage later = none) →
      OnlyFirstCounts serverConfig
  | samePage {first : XMLElement} {rest : List XMLElement}
      {page : Code × Bytes} :
      errorPageElements serverConfig = first :: rest →
      serverConfig.siblingOfFirst (bytes "ErrorPages") (bytes "ErrorPage")
        = none →
      configuredPage first = some page →
      (∀ later ∈ rest, ∀ p, configuredPage later = some p → p.1 = page.1) →
      Loads.lastWrite configuredPage rest = some page →
      OnlyFirstCounts serverConfig

-- ============================================================ one element

variable {serverConfig errorPg : XMLElement} {c : Code}

theorem namedPage_of_none (h : configuredPage errorPg = none) (c : Code) :
    namedPage c errorPg = none := by
  rw [namedPage, h]

theorem namedPage_of_page {status : Code} {file : Bytes}
    (h : configuredPage errorPg = some (status, file)) :
    namedPage c errorPg = if status = c then some file else none := by
  rw [namedPage, h]

/-- An element sets its page and no other. -/
theorem getErrorPage_loadErrorPage (router : Router) (errorPg : XMLElement)
    (c : Code) :
    (loadErrorPage router errorPg).getErrorPage c
      = (namedPage c errorPg).or (router.getErrorPage c) := by
  unfold loadErrorPage namedPage configuredPage
  dsimp only
  split
  next => rfl
  next =>
    dsimp only [Router.addErrorPage, Router.getErrorPage]
    split
    next heq =>
      subst heq
      rw [AList.lookup_insert]
      rfl
    next hne =>
      rw [AList.lookup_insert_ne (Ne.symm hne)]
      rfl

-- ================================================================ the loop

/-- Without a page there is no turn. -/
theorem runErrorPages_nil (h : errorPageElements serverConfig = [])
    (fuel : Nat) (router : Router) :
    runErrorPages serverConfig fuel router = some router := by
  have hfirst : (serverConfig.firstChildElement (bytes "ErrorPages")).bind
      (·.firstChildElement (bytes "ErrorPage")) = none := by
    unfold errorPageElements at h
    cases hpages : serverConfig.firstChildElement (bytes "ErrorPages") with
    | none => rfl
    | some errorPages =>
        rw [hpages] at h
        exact congrArg List.head? h
  rw [runErrorPages, hfirst]
  cases fuel <;> rfl

/-- The loop that is left has loaded the first page only. -/
theorem runErrorPages_cons {first : XMLElement} {rest : List XMLElement}
    (h : errorPageElements serverConfig = first :: rest) {fuel : Nat}
    {router router' : Router} :
    runErrorPages serverConfig fuel router = some router'
      ↔ serverConfig.siblingOfFirst (bytes "ErrorPages") (bytes "ErrorPage")
            = none
          ∧ 0 < fuel ∧ router' = loadErrorPage router first := by
  have hfirst : (serverConfig.firstChildElement (bytes "ErrorPages")).bind
      (·.firstChildElement (bytes "ErrorPage")) = some first := by
    unfold errorPageElements at h
    cases hpages : serverConfig.firstChildElement (bytes "ErrorPages") with
    | none =>
        rw [hpages] at h
        cases h
    | some errorPages =>
        rw [hpages] at h
        exact congrArg List.head? h
  rw [runErrorPages, hfirst]
  -- The cursor goes on to the sibling of `ErrorPages`. With one the loop
  -- has no end, without one it is over behind the first page.
  cases serverConfig.siblingOfFirst (bytes "ErrorPages")
      (bytes "ErrorPage") with
  | some sibling =>
      rw [errorPagesLoop_endless]
      constructor
      · intro hnone
        cases hnone
      · rintro ⟨hnone, -⟩
        cases hnone
  | none =>
      cases fuel with
      | zero =>
          constructor
          · intro hnone
            cases hnone
          · rintro ⟨-, hpos, -⟩
            exact absurd hpos (Nat.lt_irrefl 0)
      | succ fuel =>
          have hleft : errorPagesLoop none (fuel + 1) (some first) router
              = some (loadErrorPage router first) := by
            cases fuel <;> rfl
          rw [hleft, Option.some_inj]
          constructor
          · intro heq
            exact ⟨rfl, Nat.succ_pos fuel, heq.symm⟩
          · rintro ⟨-, -, heq⟩
            exact heq.symm

theorem getErrorPage_initial (c : Code) :
    Router.initial.getErrorPage c = none := rfl

/-- What the document asks for, with its first page apart. -/
theorem lastWrite_cons {first : XMLElement} {rest : List XMLElement} :
    Loads.lastWrite (namedPage c) (first :: rest)
      = (Loads.lastWrite (namedPage c) rest).or (namedPage c first) := by
  unfold Loads.lastWrite
  rw [List.reverse_cons, List.findSome?_append]
  cases hfirst : namedPage c first with
  | none => simp [hfirst]
  | some file => simp [hfirst]

/-- With a page, the table is the right one exactly where nothing stands
behind `ErrorPages` and the first page gives every code what the last one
would. -/
theorem allPagesLoad_cons {first : XMLElement} {rest : List XMLElement}
    (h : errorPageElements serverConfig = first :: rest) :
    AllPagesLoad serverConfig
      ↔ serverConfig.siblingOfFirst (bytes "ErrorPages") (bytes "ErrorPage")
            = none
          ∧ ∀ c, namedPage c first
              = (Loads.lastWrite (namedPage c) rest).or
                (namedPage c first) := by
  unfold AllPagesLoad
  constructor
  · rintro ⟨fuel, router, hrun, hpages⟩
    obtain ⟨hsibling, -, rfl⟩ := (runErrorPages_cons h).mp hrun
    refine ⟨hsibling, fun c => ?_⟩
    have hpage := hpages c
    rw [getErrorPage_loadErrorPage, getErrorPage_initial, Option.or_none, h,
      lastWrite_cons] at hpage
    exact hpage
  · rintro ⟨hsibling, hpages⟩
    refine ⟨1, loadErrorPage Router.initial first,
      (runErrorPages_cons h).mpr ⟨hsibling, Nat.one_pos, rfl⟩, fun c => ?_⟩
    rw [getErrorPage_loadErrorPage, getErrorPage_initial, Option.or_none, h,
      lastWrite_cons]
    exact hpages c

-- ===================================================== the pages that load

/-- No element of a list names a page for a code where none names a page
at all. -/
theorem lastWrite_namedPage_none {rest : List XMLElement}
    (h : ∀ later ∈ rest, configuredPage later = none) (c : Code) :
    Loads.lastWrite (namedPage c) rest = none :=
  Loads.lastWrite_eq_none.mpr fun later hlater =>
    namedPage_of_none (h later hlater) c

/-- Where all pages have one code, the last page is the last one for
it. -/
theorem lastWrite_namedPage_same {rest : List XMLElement} {status : Code}
    {file : Bytes}
    (hcode : ∀ later ∈ rest, ∀ p, configuredPage later = some p →
      p.1 = status)
    (hlast : Loads.lastWrite configuredPage rest = some (status, file))
    (c : Code) :
    Loads.lastWrite (namedPage c) rest
      = if status = c then some file else none := by
  by_cases hc : status = c
  · rw [if_pos hc]
    obtain ⟨before, last, after, hsplit, hpage, hafter⟩ :=
      Loads.lastWrite_eq_some.mp hlast
    refine Loads.lastWrite_eq_some.mpr
      ⟨before, last, after, hsplit, ?_, fun later hlater =>
        namedPage_of_none (hafter later hlater) c⟩
    rw [namedPage_of_page hpage, if_pos hc]
  · rw [if_neg hc]
    apply Loads.lastWrite_eq_none.mpr
    intro later hlater
    cases hpage : configuredPage later with
    | none => exact namedPage_of_none hpage c
    | some p =>
        have hsame : p.1 = status := hcode later hlater p hpage
        rw [namedPage_of_page hpage, if_neg (hsame ▸ hc)]

/-- An element for which the first page must do is the first page's
code. -/
theorem code_of_covered {first later : XMLElement} {rest : List XMLElement}
    (hcovers : ∀ c, namedPage c first
      = (Loads.lastWrite (namedPage c) rest).or (namedPage c first))
    (hlater : later ∈ rest) {p : Code × Bytes}
    (hpage : configuredPage later = some p) :
    ∃ file, configuredPage first = some (p.1, file)
      ∧ Loads.lastWrite (namedPage p.1) rest = some file := by
  cases hlast : Loads.lastWrite (namedPage p.1) rest with
  | none =>
      have hnone := Loads.lastWrite_eq_none.mp hlast later hlater
      rw [namedPage_of_page hpage, if_pos rfl] at hnone
      cases hnone
  | some file =>
      have hfirst := hcovers p.1
      rw [hlast, Option.some_or] at hfirst
      refine ⟨file, ?_, rfl⟩
      unfold namedPage at hfirst
      cases hconfigured : configuredPage first with
      | none =>
          rw [hconfigured] at hfirst
          cases hfirst
      | some q =>
          rw [hconfigured] at hfirst
          by_cases hcode : q.1 = p.1
          · simp only [if_pos hcode] at hfirst
            rw [← hcode, ← Option.some.inj hfirst]
          · simp only [if_neg hcode] at hfirst
            cases hfirst

/-- If the first page does for every code, it does for what the last page
sets. -/
theorem onlyFirstCounts_of_covered {first : XMLElement}
    {rest : List XMLElement}
    (h : errorPageElements serverConfig = first :: rest)
    (hsibling : serverConfig.siblingOfFirst (bytes "ErrorPages")
      (bytes "ErrorPage") = none)
    (hcovers : ∀ c, namedPage c first
      = (Loads.lastWrite (namedPage c) rest).or (namedPage c first)) :
    OnlyFirstCounts serverConfig := by
  cases hlast : Loads.lastWrite configuredPage rest with
  | none => exact .invalidRest h hsibling (Loads.lastWrite_eq_none.mp hlast)
  | some page =>
      obtain ⟨before, last, after, rfl, hpage, hafter⟩ :=
        Loads.lastWrite_eq_some.mp hlast
      have hmem : last ∈ before ++ last :: after := by simp
      obtain ⟨file, hfirst, hfile⟩ := code_of_covered hcovers hmem hpage
      -- The last page is the last one for its code.
      have hown : Loads.lastWrite (namedPage page.1)
          (before ++ last :: after) = some page.2 := by
        refine Loads.lastWrite_eq_some.mpr
          ⟨before, last, after, rfl, ?_, fun later hlater =>
            namedPage_of_none (hafter later hlater) _⟩
        rw [namedPage_of_page hpage, if_pos rfl]
      rw [Option.some.inj (hfile.symm.trans hown)] at hfirst
      refine .samePage h hsibling hfirst ?_ hlast
      intro later hlater p hp
      obtain ⟨file', hfirst', -⟩ := code_of_covered hcovers hlater hp
      exact (congrArg Prod.fst
        (Option.some.inj (hfirst.symm.trans hfirst'))).symm

/-- And if only the first page counts, it does for every code. -/
theorem covered_of_onlyFirstCounts {first : XMLElement}
    {rest : List XMLElement}
    (helements : errorPageElements serverConfig = first :: rest)
    (h : OnlyFirstCounts serverConfig) :
    serverConfig.siblingOfFirst (bytes "ErrorPages") (bytes "ErrorPage")
        = none
      ∧ ∀ c, namedPage c first
          = (Loads.lastWrite (namedPage c) rest).or (namedPage c first) := by
  cases h with
  | noPage hnil =>
      rw [helements] at hnil
      cases hnil
  | invalidRest hcons hsibling hrest =>
      rw [helements] at hcons
      cases hcons
      refine ⟨hsibling, fun c => ?_⟩
      rw [lastWrite_namedPage_none hrest, Option.none_or]
  | @samePage _ _ page hcons hsibling hfirst hcode hlast =>
      rw [helements] at hcons
      cases hcons
      refine ⟨hsibling, fun c => ?_⟩
      rw [lastWrite_namedPage_same hcode hlast, namedPage_of_page hfirst]
      split
      next => rfl
      next => rfl

/-- The error pages load as the document says exactly where only the
first one counts. -/
theorem all_pages_load_iff (serverConfig : XMLElement) :
    AllPagesLoad serverConfig ↔ OnlyFirstCounts serverConfig := by
  cases helements : errorPageElements serverConfig with
  | nil =>
      refine iff_of_true ⟨0, Router.initial,
        runErrorPages_nil helements 0 _, fun c => ?_⟩ (.noPage helements)
      rw [helements, Loads.lastWrite_nil]
      rfl
  | cons first rest =>
      rw [allPagesLoad_cons helements]
      constructor
      · rintro ⟨hsibling, hcovers⟩
        exact onlyFirstCounts_of_covered helements hsibling hcovers
      · intro h
        exact covered_of_onlyFirstCounts helements h

/-- Two error pages, as the documentation configures them. -/
def twoErrorPages : XMLElement :=
  .mk (bytes "ServerConfig") [] [.mk (bytes "ErrorPages") []
    [.mk (bytes "ErrorPage")
      [(bytes "code", bytes "404"),
        (bytes "file", bytes "error_pages/404.html")] [],
     .mk (bytes "ErrorPage")
      [(bytes "code", bytes "500"),
        (bytes "file", bytes "error_pages/500.html")] []]]

/-- The second of them is not loaded. -/
theorem second_page_not_loaded : ¬ AllPagesLoad twoErrorPages := by
  intro h
  have helements : errorPageElements twoErrorPages
      = .mk (bytes "ErrorPage")
          [(bytes "code", bytes "404"),
            (bytes "file", bytes "error_pages/404.html")] []
        :: [.mk (bytes "ErrorPage")
          [(bytes "code", bytes "500"),
            (bytes "file", bytes "error_pages/500.html")] []] := rfl
  have hcovers := ((allPagesLoad_cons helements).mp h).2 .internalServerError
  revert hcovers
  decide +kernel

end CgiWebServer
