/-
What the loaded roles are, read off the document.

A title is known if it is built in or some `Role` element has it
(`Named`). What a role includes (`Includes`) is what its last element
lists in front of the first `*`, and every known title as soon as one of
its elements has a `*`, be it the last one or not: the second pass holds
pointers to entries of the map, not to definitions.
-/
import CgiWebServer.Lib.Loads
import CgiWebServer.Startup.Roles

namespace CgiWebServer

/-- The `Role` elements. -/
def roleElements (serverConfig : XMLElement) : List XMLElement :=
  match serverConfig.firstChildElement (bytes "Roles") with
  | none => []
  | some roleConfig => roleConfig.childElements (bytes "Role")

def roleTitle (roleEl : XMLElement) : Bytes :=
  attributeOrEmpty roleEl "title"

/-- The `Includes` elements of a `Role`. -/
def includesOf (roleEl : XMLElement) : List XMLElement :=
  roleEl.childElements (bytes "Includes")

/-- The text that stands for all roles. -/
def isStar (includeEl : XMLElement) : Bool :=
  includeEl.text == some (bytes "*")

/-- A role has an `Includes` of the text `*`. -/
def HasStar (roleEl : XMLElement) : Prop :=
  ∃ includeEl ∈ includesOf roleEl, isStar includeEl = true

/-- The texts of a role's `Includes` in front of its first `*`. -/
def listed (roleEl : XMLElement) : List Bytes :=
  ((includesOf roleEl).takeWhile fun e => !isStar e).filterMap (·.text)

/-- A title that is built in or that an element has. -/
def Named (els : List XMLElement) (r : Bytes) : Prop :=
  r ∈ builtInRoles ∨ ∃ e ∈ els, roleTitle e = r

/-- The role `r` includes the role `a`. -/
inductive Includes (els : List XMLElement) (r a : Bytes) : Prop
  | builtIn {role : Role} : (∀ e ∈ els, roleTitle e ≠ r) →
      builtInRoles.lookup r = some role → a ∈ role.includes →
      Includes els r a
  | listed {before after : List XMLElement} {e : XMLElement} :
      els = before ++ e :: after → roleTitle e = r →
      (∀ later ∈ after, roleTitle later ≠ r) → a ∈ listed e →
      Includes els r a
  | full {e : XMLElement} : e ∈ els → roleTitle e = r → HasStar e →
      Named els a → Includes els r a

variable {els : List XMLElement} {r a : Bytes} {t t' : RoleTable}
  {roles : Roles}

-- ============================================================= first pass

/-- The inner loop, by its two results. -/
theorem loadIncludes_eq (els : List XMLElement) :
    loadIncludes els
      = ((els.takeWhile fun e => !isStar e).filterMap (·.text),
        els.any isStar) := by
  induction els with
  | nil => rfl
  | cons e rest ih =>
      unfold loadIncludes
      cases htext : e.text with
      | none =>
          have hstar : isStar e = false := by simp [isStar, htext]
          simp [hstar, htext, ih]
      | some text =>
          by_cases htextStar : text = bytes "*"
          · have hstar : isStar e = true := by simp [isStar, htext, htextStar]
            simp [hstar, htextStar]
          · have hstar : isStar e = false := by
              simp [isStar, htext, htextStar]
            simp [hstar, htext, htextStar, ih]

/-- What an element makes of the role `r`. -/
def roleWrite (r : Bytes) (e : XMLElement) : Option Role :=
  if roleTitle e = r then some { title := r, includes := listed e } else none

/-- A `Role` element that is loaded. -/
theorem loadRole_ok {e : XMLElement} (h : loadRole t e = .ok t') :
    t'.roles = t.roles.insert (roleTitle e)
        { title := roleTitle e, includes := listed e }
      ∧ t'.fullIncludeRoles = t.fullIncludeRoles
        ++ if (includesOf e).any isStar then [roleTitle e] else [] := by
  unfold loadRole at h
  have hincludes := loadIncludes_eq (e.childElements (bytes "Includes"))
  simp only [hincludes] at h
  by_cases hempty : (attributeOrEmpty e "title").isEmpty = true
  · rw [if_pos hempty] at h
    cases h
  · rw [if_neg hempty] at h
    cases h
    exact ⟨rfl, rfl⟩

/-- The entry of a title after a step of the first pass. -/
theorem lookup_loadRole {e : XMLElement} (h : loadRole t e = .ok t')
    (r : Bytes) :
    t'.roles.lookup r = (roleWrite r e).or (t.roles.lookup r) := by
  rw [(loadRole_ok h).1]
  unfold roleWrite
  by_cases htitle : roleTitle e = r
  · subst htitle
    rw [AList.lookup_insert, if_pos rfl]
    rfl
  · rw [AList.lookup_insert_ne (Ne.symm htitle), if_neg htitle]
    rfl

/-- The titles the second pass expands: those of elements with a `*`. -/
theorem mem_fullIncludeRoles (h : els.foldlM loadRole t = .ok t')
    (hnone : t.fullIncludeRoles = []) (r : Bytes) :
    r ∈ t'.fullIncludeRoles ↔ ∃ e ∈ els, roleTitle e = r ∧ HasStar e := by
  have hall : ∀ r, r ∈ t'.fullIncludeRoles
      ↔ ∃ e ∈ els, roleTitle e = r ∧ HasStar e := by
    refine Loads.foldlM_done (P := fun done t => ∀ r,
      r ∈ t.fullIncludeRoles ↔ ∃ e ∈ done, roleTitle e = r ∧ HasStar e)
      ?_ h ?_
    · intro done e t t' ih hstep r
      have hstar : (includesOf e).any isStar = true ↔ HasStar e :=
        List.any_eq_true
      have hsnoc : (∃ f ∈ done ++ [e], roleTitle f = r ∧ HasStar f)
          ↔ (∃ f ∈ done, roleTitle f = r ∧ HasStar f)
            ∨ (roleTitle e = r ∧ HasStar e) := by
        simp [or_and_right, exists_or]
      rw [(loadRole_ok hstep).2, List.mem_append, ih r, hsnoc]
      by_cases hfull : HasStar e
      · rw [if_pos (hstar.mpr hfull)]
        simp [hfull, eq_comm]
      · rw [if_neg fun hany => hfull (hstar.mp hany)]
        simp [hfull]
    · intro r
      simp [hnone]
  exact hall r

-- ============================================================ second pass

/-- What the second pass makes of a map: the roles whose titles it runs
over include every title. -/
structure Expanded (roles : Roles) (titles : List Bytes) (roles' : Roles) :
    Prop where
  mem : ∀ a, a ∈ roles' ↔ a ∈ roles
  entry : ∀ r role, roles.lookup r = some role →
    ∃ role', roles'.lookup r = some role' ∧ role'.title = role.title
      ∧ ∀ a, a ∈ role'.includes
        ↔ a ∈ role.includes ∨ (r ∈ titles ∧ a ∈ roles)

/-- One of its steps. -/
theorem expanded_includeAll (roles : Roles) (title : Bytes) :
    Expanded roles [title] (includeAll roles title) := by
  unfold includeAll
  cases hlookup : roles.lookup title with
  | none =>
      refine ⟨fun _ => Iff.rfl, fun r role hrole => ⟨role, hrole, rfl, ?_⟩⟩
      intro a
      have hne : r ≠ title := by
        rintro rfl
        cases hlookup.symm.trans hrole
      simp [hne]
  | some entry =>
      have hmem : title ∈ roles :=
        AList.lookup_isSome.mp (by rw [hlookup]; rfl)
      constructor
      · intro a
        rw [AList.mem_insert]
        exact ⟨fun h => h.elim (fun heq => heq ▸ hmem) id, Or.inr⟩
      · intro r role hrole
        by_cases htitle : r = title
        · subst htitle
          obtain rfl : entry = role :=
            Option.some.inj (hlookup.symm.trans hrole)
          refine ⟨_, AList.lookup_insert _, rfl, fun a => ?_⟩
          simp [AList.mem_keys]
        · refine ⟨role, ?_, rfl, fun a => by simp [htitle]⟩
          rw [AList.lookup_insert_ne htitle]
          exact hrole

/-- The whole of it. -/
theorem expanded_foldl (titles : List Bytes) (roles : Roles) :
    Expanded roles titles (titles.foldl includeAll roles) := by
  induction titles generalizing roles with
  | nil =>
      exact ⟨fun _ => Iff.rfl, fun r role hrole =>
        ⟨role, hrole, rfl, fun a => by simp⟩⟩
  | cons title rest ih =>
      have hfirst := expanded_includeAll roles title
      have hrest := ih (includeAll roles title)
      refine ⟨fun a => (hrest.mem a).trans (hfirst.mem a), ?_⟩
      intro r role hrole
      obtain ⟨role₁, hlookup₁, htitle₁, hincludes₁⟩ :=
        hfirst.entry r role hrole
      obtain ⟨role₂, hlookup₂, htitle₂, hincludes₂⟩ :=
        hrest.entry r role₁ hlookup₁
      refine ⟨role₂, hlookup₂, htitle₂.trans htitle₁, fun a => ?_⟩
      rw [hincludes₂ a, hincludes₁ a, hfirst.mem a, List.mem_singleton,
        List.mem_cons]
      tauto

-- ================================================================== roles

/-- Every entry of the built-in map is under its own title. -/
theorem builtIn_title {role : Role} (h : builtInRoles.lookup r = some role) :
    role.title = r := by
  have hmem : r = viewerRole ∨ r = userRole ∨ r = adminRole := by
    have hin : r ∈ builtInRoles := AList.lookup_isSome.mp (by rw [h]; rfl)
    simpa only [builtInRoles, AList.mem_insert, AList.notMem_empty,
      or_false] using hin
  rcases hmem with rfl | rfl | rfl
  · cases h
    rfl
  · cases h
    rfl
  · cases h
    rfl

/-- The loaded map: the first pass over the elements, expanded. -/
theorem loadRoles_ok {serverConfig : XMLElement}
    (h : loadRoles serverConfig = .ok roles) :
    ∃ t : RoleTable,
      (∀ r, t.roles.lookup r
        = (Loads.lastWrite (roleWrite r) (roleElements serverConfig)).or
          (builtInRoles.lookup r))
      ∧ (∀ r, r ∈ t.fullIncludeRoles
        ↔ ∃ e ∈ roleElements serverConfig, roleTitle e = r ∧ HasStar e)
      ∧ roles = t.fullIncludeRoles.foldl includeAll t.roles := by
  unfold loadRoles at h
  unfold roleElements
  cases hroles : serverConfig.firstChildElement (bytes "Roles") with
  | none =>
      rw [hroles] at h
      cases h
      refine ⟨{ roles := builtInRoles }, fun r => ?_, fun r => ?_, rfl⟩
      · rw [Loads.lastWrite_nil, Option.none_or]
      · simp
  | some roleConfig =>
      rw [hroles] at h
      obtain ⟨t, hload, h⟩ := Loads.bind_ok h
      cases h
      refine ⟨t, fun r => ?_, mem_fullIncludeRoles hload rfl, rfl⟩
      exact Loads.foldlM_lastWrite (fun t : RoleTable => t.roles.lookup r)
        (roleWrite r) (fun _ _ _ hstep => lookup_loadRole hstep r) hload

/-- The entry the first pass leaves under a known title. -/
theorem firstPass_cases (els : List XMLElement) (r : Bytes) :
    (∃ before e after, els = before ++ e :: after ∧ roleTitle e = r
        ∧ (∀ later ∈ after, roleTitle later ≠ r)
        ∧ Loads.lastWrite (roleWrite r) els
          = some { title := r, includes := listed e })
      ∨ ((∀ e ∈ els, roleTitle e ≠ r)
        ∧ Loads.lastWrite (roleWrite r) els = none) := by
  have hnone : ∀ e, roleWrite r e = none ↔ roleTitle e ≠ r := by
    intro e
    by_cases htitle : roleTitle e = r
    · simp [roleWrite, htitle]
    · simp [roleWrite, htitle]
  cases hlast : Loads.lastWrite (roleWrite r) els with
  | none =>
      have hwrites := Loads.lastWrite_eq_none.mp hlast
      exact Or.inr ⟨fun e he => (hnone e).mp (hwrites e he), rfl⟩
  | some role =>
      obtain ⟨before, e, after, hsplit, hwrite, hlater⟩ :=
        Loads.lastWrite_eq_some.mp hlast
      have htitle : roleTitle e = r := by
        by_contra hne
        cases ((hnone e).mpr hne).symm.trans hwrite
      rw [roleWrite, if_pos htitle] at hwrite
      refine Or.inl ⟨before, e, after, hsplit, htitle, ?_, hwrite.symm⟩
      exact fun later hin => (hnone later).mp (hlater later hin)

/-- The titles of the map after the first pass. -/
theorem firstPass_named {t : RoleTable}
    (h : ∀ r, t.roles.lookup r
      = (Loads.lastWrite (roleWrite r) els).or (builtInRoles.lookup r))
    (r : Bytes) : r ∈ t.roles ↔ Named els r := by
  rw [← AList.lookup_isSome, h r]
  rcases firstPass_cases els r with
    ⟨before, e, after, hsplit, htitle, -, hlast⟩ | ⟨hnone, hlast⟩
  · rw [hlast]
    have hmem : e ∈ els := by rw [hsplit]; simp
    exact ⟨fun _ => Or.inr ⟨e, hmem, htitle⟩, fun _ => rfl⟩
  · rw [hlast, Option.none_or, AList.lookup_isSome]
    refine ⟨Or.inl, fun hnamed => ?_⟩
    rcases hnamed with hbuiltIn | ⟨e, he, htitle⟩
    · exact hbuiltIn
    · exact absurd htitle (hnone e he)

/-- What the last element of a title makes of it. -/
theorem lastWrite_of_element {before after : List XMLElement}
    {e : XMLElement} (hsplit : els = before ++ e :: after)
    (htitle : roleTitle e = r)
    (hlater : ∀ later ∈ after, roleTitle later ≠ r) :
    Loads.lastWrite (roleWrite r) els
      = some { title := r, includes := listed e } :=
  Loads.lastWrite_eq_some.mpr ⟨before, e, after, hsplit, if_pos htitle,
    fun later hin => if_neg (hlater later hin)⟩

/-- What a role includes that an element defines. -/
theorem includes_of_element {before after : List XMLElement}
    {e : XMLElement} (hsplit : els = before ++ e :: after)
    (htitle : roleTitle e = r) (hlater : ∀ later ∈ after, roleTitle later ≠ r)
    (a : Bytes) :
    Includes els r a ↔ a ∈ listed e
      ∨ ((∃ f ∈ els, roleTitle f = r ∧ HasStar f) ∧ Named els a) := by
  constructor
  · intro h
    cases h with
    | builtIn hnone => exact absurd htitle (hnone e (by simp [hsplit]))
    | listed hsplit' htitle' hlater' hlisted =>
        -- Both are the last element of the title.
        have hsame := (lastWrite_of_element hsplit' htitle' hlater').symm.trans
          (lastWrite_of_element hsplit htitle hlater)
        have hlists : listed _ = listed e :=
          congrArg Role.includes (Option.some.inj hsame)
        exact Or.inl (hlists ▸ hlisted)
    | full hmem htitle' hstar hnamed =>
        exact Or.inr ⟨⟨_, hmem, htitle', hstar⟩, hnamed⟩
  · intro h
    rcases h with hlisted | ⟨⟨f, hf, hftitle, hstar⟩, hnamed⟩
    · exact .listed hsplit htitle hlater hlisted
    · exact .full hf hftitle hstar hnamed

/-- What a built-in role includes that no element redefines. -/
theorem includes_of_builtIn {entry : Role}
    (hnone : ∀ e ∈ els, roleTitle e ≠ r)
    (hentry : builtInRoles.lookup r = some entry) (a : Bytes) :
    Includes els r a ↔ a ∈ entry.includes := by
  constructor
  · intro h
    cases h with
    | builtIn _ hentry' hincludes =>
        exact Option.some.inj (hentry'.symm.trans hentry) ▸ hincludes
    | listed hsplit htitle =>
        exact absurd htitle (hnone _ (by simp [hsplit]))
    | full hmem htitle => exact absurd htitle (hnone _ hmem)
  · exact .builtIn hnone hentry

/-- A loaded role, and what it includes. -/
theorem findRole_loadRoles {serverConfig : XMLElement}
    (h : loadRoles serverConfig = .ok roles)
    (hnamed : Named (roleElements serverConfig) r) :
    ∃ role, roles.findRole r = some role ∧ role.title = r
      ∧ ∀ a, a ∈ role.includes
        ↔ Includes (roleElements serverConfig) r a := by
  obtain ⟨t, hlookup, hfull, rfl⟩ := loadRoles_ok h
  generalize roleElements serverConfig = els at hnamed hlookup hfull
  have hexpanded := expanded_foldl t.fullIncludeRoles t.roles
  -- A role is what its last element says, or a built-in one that no element
  -- names.
  rcases firstPass_cases els r with
    ⟨before, e, after, hsplit, htitle, hlater, hlast⟩ | ⟨hnone, hlast⟩
  · have hentry : t.roles.lookup r
        = some { title := r, includes := listed e } := by
      rw [hlookup r, hlast]
      rfl
    obtain ⟨role, hrole, hroleTitle, hincludes⟩ :=
      hexpanded.entry r _ hentry
    refine ⟨role, hrole, hroleTitle, fun a => ?_⟩
    rw [hincludes a, hfull r, firstPass_named hlookup a,
      includes_of_element hsplit htitle hlater]
  · have hbuiltIn : r ∈ builtInRoles :=
      hnamed.resolve_right fun ⟨e, he, htitle⟩ => hnone e he htitle
    obtain ⟨entry, hentry⟩ :=
      Option.isSome_iff_exists.mp (AList.lookup_isSome.mpr hbuiltIn)
    have hfirst : t.roles.lookup r = some entry := by
      rw [hlookup r, hlast]
      exact hentry
    have hnotFull : r ∉ t.fullIncludeRoles := by
      rw [hfull r]
      exact fun ⟨e, he, htitle, _⟩ => hnone e he htitle
    obtain ⟨role, hrole, hroleTitle, hincludes⟩ :=
      hexpanded.entry r entry hfirst
    refine ⟨role, hrole, hroleTitle.trans (builtIn_title hentry),
      fun a => ?_⟩
    rw [hincludes a, includes_of_builtIn hnone hentry]
    exact ⟨fun h => h.resolve_right fun hin => hnotFull hin.1, Or.inl⟩

/-- A role that is not known is not found. -/
theorem findRole_eq_none {serverConfig : XMLElement}
    (h : loadRoles serverConfig = .ok roles)
    (hnamed : ¬ Named (roleElements serverConfig) r) :
    roles.findRole r = none := by
  obtain ⟨t, hlookup, -, rfl⟩ := loadRoles_ok h
  have hexpanded := expanded_foldl t.fullIncludeRoles t.roles
  apply AList.lookup_eq_none.mpr
  rw [hexpanded.mem r, firstPass_named hlookup r]
  exact hnamed

/-- `includesRole`, as a proposition. -/
theorem includesRole_iff {role : Role} {a : Bytes} :
    role.includesRole a = true ↔ role.title = a ∨ a ∈ role.includes := by
  rw [Role.includesRole, Bool.or_eq_true, beq_iff_eq,
    List.contains_iff_mem]

/-- A role is found and includes an access role exactly where it is known
and is that role, or the document has it include that role. -/
theorem includesRole_loadRoles {serverConfig : XMLElement}
    (h : loadRoles serverConfig = .ok roles) :
    (∃ role, roles.findRole r = some role ∧ role.includesRole a = true)
      ↔ Named (roleElements serverConfig) r
        ∧ (a = r ∨ Includes (roleElements serverConfig) r a) := by
  by_cases hnamed : Named (roleElements serverConfig) r
  · obtain ⟨role, hrole, htitle, hincludes⟩ := findRole_loadRoles h hnamed
    have hgrants : role.includesRole a = true
        ↔ a = r ∨ Includes (roleElements serverConfig) r a := by
      rw [includesRole_iff, hincludes, htitle]
      exact or_congr_left eq_comm
    rw [hrole, ← hgrants]
    constructor
    · intro h
      obtain ⟨role', hrole', hin⟩ := h
      obtain rfl := Option.some.inj hrole'
      exact ⟨hnamed, hin⟩
    · intro h
      obtain ⟨-, hin⟩ := h
      exact ⟨role, rfl, hin⟩
  · rw [findRole_eq_none h hnamed]
    constructor
    · intro h
      obtain ⟨role, hrole, -⟩ := h
      cases hrole
    · intro h
      obtain ⟨hnamed', -⟩ := h
      exact absurd hnamed' hnamed

end CgiWebServer
