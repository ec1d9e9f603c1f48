/-
What the `*` role is good for, and whose `*` counts.

The second pass of `loadRoles` runs over pointers to entries of the map.
An entry outlives the definition it was entered for: where a title is
defined again, the `*` of the earlier definition expands the later one.
And the pass adds the titles of the map, while routes name access roles
freely, so a `*` does not reach an access role that nobody declared.

The document itself says what should be: the definitions in force are
those that no later one of their title replaces (`inForce`,
`LastOf`). The map answers as theirs alone would exactly where an
expansion left over from an earlier definition adds nothing
(`same_answers_iff`).
-/
import CgiWebServer.Proofs.RouteTable
import CgiWebServer.Proofs.RoleHierarchy

namespace CgiWebServer

-- ==================================================== definitions in force

/-- The elements that no later one of their title replaces. -/
def inForce : List XMLElement → List XMLElement
  | [] => []
  | e :: rest =>
      if rest.any (fun later => roleTitle later == roleTitle e) then
        inForce rest
      else e :: inForce rest

/-- The last element of a title. -/
def LastOf (els : List XMLElement) (r : Bytes) (e : XMLElement) : Prop :=
  ∃ before after, els = before ++ e :: after ∧ roleTitle e = r
    ∧ ∀ later ∈ after, roleTitle later ≠ r

variable {els : List XMLElement} {r a : Bytes} {e f : XMLElement}

theorem LastOf.mem (h : LastOf els r e) : e ∈ els := by
  obtain ⟨before, after, rfl, -⟩ := h
  exact List.mem_append_right _ List.mem_cons_self

theorem LastOf.title (h : LastOf els r e) : roleTitle e = r := by
  obtain ⟨-, -, -, htitle, -⟩ := h
  exact htitle

/-- In front of the elements behind it, an element is the last of its
title only if none of them has it. -/
theorem lastOf_cons :
    LastOf (f :: els) r e
      ↔ LastOf els r e
        ∨ (e = f ∧ roleTitle f = r ∧ ∀ later ∈ els, roleTitle later ≠ r) := by
  constructor
  · intro h
    obtain ⟨before, after, hsplit, htitle, hlater⟩ := h
    cases before with
    | nil =>
        obtain ⟨rfl, rfl⟩ := List.cons_eq_cons.mp hsplit
        exact Or.inr ⟨rfl, htitle, hlater⟩
    | cons g before =>
        obtain ⟨-, hrest⟩ := List.cons_eq_cons.mp hsplit
        exact Or.inl ⟨before, after, hrest, htitle, hlater⟩
  · intro h
    rcases h with ⟨before, after, rfl, htitle, hlater⟩ | ⟨rfl, htitle, hlater⟩
    · exact ⟨f :: before, after, rfl, htitle, hlater⟩
    · exact ⟨[], els, rfl, htitle, hlater⟩

/-- A title that an element has is that of a last one. -/
theorem exists_lastOf (h : ∃ e ∈ els, roleTitle e = r) :
    ∃ e, LastOf els r e := by
  induction els with
  | nil =>
      obtain ⟨e, he, -⟩ := h
      cases he
  | cons f rest ih =>
      by_cases hrest : ∃ e ∈ rest, roleTitle e = r
      · obtain ⟨e, he⟩ := ih hrest
        exact ⟨e, lastOf_cons.mpr (Or.inl he)⟩
      · obtain ⟨e, he, htitle⟩ := h
        rcases List.mem_cons.mp he with rfl | hin
        · refine ⟨e, lastOf_cons.mpr (Or.inr ⟨rfl, htitle, ?_⟩)⟩
          exact fun later hlater heq => hrest ⟨later, hlater, heq⟩
        · exact absurd ⟨e, hin, htitle⟩ hrest

/-- The elements in force are the last ones. -/
theorem mem_inForce : e ∈ inForce els ↔ LastOf els (roleTitle e) e := by
  induction els with
  | nil =>
      apply iff_of_false List.not_mem_nil
      exact fun h => absurd h.mem List.not_mem_nil
  | cons f rest ih =>
      rw [lastOf_cons, inForce]
      by_cases hlater : ∃ later ∈ rest, roleTitle later = roleTitle f
      · have hany : rest.any (fun later => roleTitle later == roleTitle f)
            = true := by
          obtain ⟨later, hin, heq⟩ := hlater
          exact List.any_eq_true.mpr ⟨later, hin, beq_iff_eq.mpr heq⟩
        rw [if_pos hany, ih]
        refine (or_iff_left ?_).symm
        intro h
        obtain ⟨rfl, -, hnone⟩ := h
        obtain ⟨later, hin, heq⟩ := hlater
        exact hnone later hin heq
      · have hany : ¬ rest.any (fun later => roleTitle later == roleTitle f)
            = true := by
          intro hany
          obtain ⟨later, hin, heq⟩ := List.any_eq_true.mp hany
          exact hlater ⟨later, hin, beq_iff_eq.mp heq⟩
        rw [if_neg hany, List.mem_cons, ih, or_comm]
        refine or_congr_right ⟨?_, And.left⟩
        rintro rfl
        exact ⟨rfl, rfl, fun later hin heq => hlater ⟨later, hin, heq⟩⟩

/-- There is one last element of a title. -/
theorem LastOf.unique (he : LastOf els r e) (hf : LastOf els r f) :
    e = f := by
  induction els with
  | nil => exact absurd he.mem List.not_mem_nil
  | cons g rest ih =>
      rcases lastOf_cons.mp he with hein | ⟨heq, -, hnone⟩
      · rcases lastOf_cons.mp hf with hfin | ⟨-, -, hnone⟩
        · exact ih hein hfin
        · exact absurd hein.title (hnone e hein.mem)
      · rcases lastOf_cons.mp hf with hfin | ⟨hfeq, -, -⟩
        · exact absurd hfin.title (hnone f hfin.mem)
        · exact heq.trans hfeq.symm

/-- Removing what is replaced changes no last element. -/
theorem lastOf_inForce : LastOf (inForce els) r e ↔ LastOf els r e := by
  have hkeeps : ∀ e, LastOf (inForce els) r e → LastOf els r e := by
    intro e h
    have hlast := mem_inForce.mp h.mem
    rwa [h.title] at hlast
  refine ⟨hkeeps e, fun h => ?_⟩
  have hmem : e ∈ inForce els := mem_inForce.mpr (h.title.symm ▸ h)
  obtain ⟨f, hf⟩ := exists_lastOf ⟨e, hmem, h.title⟩
  exact h.unique (hkeeps f hf) ▸ hf

/-- Nor which titles are known. -/
theorem named_inForce : Named (inForce els) r ↔ Named els r := by
  refine or_congr_right ⟨?_, ?_⟩
  · intro h
    obtain ⟨e, he, htitle⟩ := h
    exact ⟨e, (mem_inForce.mp he).mem, htitle⟩
  · intro h
    obtain ⟨e, he⟩ := exists_lastOf h
    have hlast := lastOf_inForce.mpr he
    exact ⟨e, hlast.mem, hlast.title⟩

/-- Some element of a title has a `*`. -/
def StarOf (els : List XMLElement) (r : Bytes) : Prop :=
  ∃ f ∈ els, roleTitle f = r ∧ HasStar f

/-- Of the elements in force only the last of the title can. -/
theorem starOf_inForce (h : LastOf els r e) :
    StarOf (inForce els) r ↔ HasStar e := by
  constructor
  · intro h
    obtain ⟨f, hf, htitle, hstar⟩ := h
    have hlast := mem_inForce.mp hf
    rw [htitle] at hlast
    exact hlast.unique h ▸ hstar
  · intro hstar
    have hlast := lastOf_inForce.mpr h
    exact ⟨e, hlast.mem, h.title, hstar⟩

/-- What a declared role includes: the list of its last element, and all
that is known if any of its elements has a `*`. -/
theorem includes_of_last (h : LastOf els r e) :
    Includes els r a ↔ a ∈ listed e ∨ (StarOf els r ∧ Named els a) := by
  obtain ⟨before, after, hsplit, htitle, hlater⟩ := h
  exact includes_of_element hsplit htitle hlater a

-- ============================================================ the answers

/-- A role is found and includes a role. -/
def Roles.Grants (roles : Roles) (r a : Bytes) : Prop :=
  ∃ role, roles.findRole r = some role ∧ role.includesRole a = true

/-- The same as the document has it (`includesRole_loadRoles`). -/
def Answers (els : List XMLElement) (r a : Bytes) : Prop :=
  Named els r ∧ (a = r ∨ Includes els r a)

/-- No expansion is left over from a definition that is not in force: a
role whose last element has no `*`, while an earlier one has, lists every
known title itself. -/
def NoLeftover (els : List XMLElement) : Prop :=
  ∀ r e, LastOf els r e → ¬ HasStar e → StarOf els r →
    ∀ a, Named els a → a = r ∨ a ∈ listed e

/-- A declared role answers as its last definition would exactly where no
expansion is left over. -/
theorem same_answers_of_last (h : LastOf els r e) :
    (∀ a, Answers els r a ↔ Answers (inForce els) r a)
      ↔ (¬ HasStar e → StarOf els r →
          ∀ a, Named els a → a = r ∨ a ∈ listed e) := by
  have hnamed : Named els r := Or.inr ⟨e, h.mem, h.title⟩
  have hall : ∀ a, Answers els r a
      ↔ a = r ∨ a ∈ listed e ∨ (StarOf els r ∧ Named els a) := by
    intro a
    rw [Answers, and_iff_right hnamed, includes_of_last h]
  have hkept : ∀ a, Answers (inForce els) r a
      ↔ a = r ∨ a ∈ listed e ∨ (HasStar e ∧ Named els a) := by
    intro a
    rw [Answers, named_inForce, and_iff_right hnamed,
      includes_of_last (lastOf_inForce.mpr h), starOf_inForce h,
      named_inForce]
  -- A star counts from any element of the role, in force or not; that is
  -- all the two readings differ in.
  have hstar : HasStar e → StarOf els r := fun hstar =>
    ⟨e, h.mem, h.title, hstar⟩
  simp only [hall, hkept]
  constructor
  · intro hsame hnone hleft a ha
    rcases (hsame a).mp (Or.inr (Or.inr ⟨hleft, ha⟩)) with
      heq | hlisted | ⟨hyes, -⟩
    · exact Or.inl heq
    · exact Or.inr hlisted
    · exact absurd hyes hnone
  · intro hcond a
    constructor
    · intro h
      rcases h with heq | hlisted | ⟨hleft, ha⟩
      · exact Or.inl heq
      · exact Or.inr (Or.inl hlisted)
      · by_cases hyes : HasStar e
        · exact Or.inr (Or.inr ⟨hyes, ha⟩)
        · exact (hcond hyes hleft a ha).imp_right Or.inl
    · intro h
      rcases h with heq | hlisted | ⟨hyes, ha⟩
      · exact Or.inl heq
      · exact Or.inr (Or.inl hlisted)
      · exact Or.inr (Or.inr ⟨hstar hyes, ha⟩)

/-- A built-in role that no element defines answers the same in any
case. -/
theorem same_answers_of_builtIn (h : ∀ e ∈ els, roleTitle e ≠ r) (a : Bytes) :
    Answers els r a ↔ Answers (inForce els) r a := by
  have hkept : ∀ e ∈ inForce els, roleTitle e ≠ r := fun e he =>
    h e (mem_inForce.mp he).mem
  rw [Answers, Answers, named_inForce]
  refine and_congr_right fun hnamed => or_congr_right ?_
  have hbuiltIn : r ∈ builtInRoles :=
    hnamed.resolve_right fun ⟨e, he, htitle⟩ => h e he htitle
  obtain ⟨entry, hentry⟩ :=
    Option.isSome_iff_exists.mp (AList.lookup_isSome.mpr hbuiltIn)
  rw [includes_of_builtIn h hentry, includes_of_builtIn hkept hentry]

/-- All roles do exactly where no expansion is left over at all. -/
theorem same_answers_iff :
    (∀ r a, Answers els r a ↔ Answers (inForce els) r a)
      ↔ NoLeftover els := by
  constructor
  · intro hsame r e he
    exact (same_answers_of_last he).mp (hsame r)
  · intro hcond r
    by_cases hdeclared : ∃ e ∈ els, roleTitle e = r
    · obtain ⟨e, he⟩ := exists_lastOf hdeclared
      exact (same_answers_of_last he).mpr (hcond r e he)
    · exact same_answers_of_builtIn fun e he htitle =>
        hdeclared ⟨e, he, htitle⟩

-- ========================================================= access roles

/-- A table with a protected entry of an access role. -/
def Router.Protects (r : Router) (a : Bytes) : Prop :=
  ∃ p entry, r.derefRoute p = some entry
    ∧ (entry.isProtected = true ∧ entry.accessRole = a)

/-- A document with a protected route in force of an access role. -/
def DocumentProtects (serverConfig : XMLElement) (a : Bytes) : Prop :=
  ∃ route, RouteInForce serverConfig route
    ∧ (isTrue route "protected" = true
      ∧ roleOr route "access_role" adminRole = a)

variable {serverConfig kept : XMLElement} {contentPath : Bytes}
  {errorPages : AList fun _ : Code => Bytes} {srv : Server}
  {roles keptRoles : Roles}

/-- The protected entries are those of the protected routes in force. -/
theorem protects_iff
    (h : initializeServer contentPath serverConfig errorPages = .ok srv) :
    srv.router.Protects a ↔ DocumentProtects serverConfig a := by
  refine exists_entry_iff h ?_ ?_
  · intro p entry hentry h
    obtain ⟨hprotected, -⟩ := h
    cases (derefRoute_initial hentry).isProtected.symm.trans hprotected
  · intro route entry hloaded
    obtain ⟨kind, -, rfl⟩ := loadedEntry_ok hloaded
    refine and_congr_right fun hprotected => ?_
    have haccess : (routeMethod contentPath route).accessRole
        = roleOr route "access_role" adminRole :=
      if_pos hprotected
    exact Eq.congr_left haccess

/-- Every `*` in force reaches the access roles: each is a known title, or
listed in front of the `*`. -/
def StarReaches (serverConfig : XMLElement) : Prop :=
  ∀ r e a, LastOf (roleElements serverConfig) r e → HasStar e →
    DocumentProtects serverConfig a →
    Named (roleElements serverConfig) a ∨ a ∈ listed e

/-- What a loaded map grants. -/
theorem grants_iff (h : loadRoles serverConfig = .ok roles) (r a : Bytes) :
    roles.Grants r a ↔ Answers (roleElements serverConfig) r a :=
  includesRole_loadRoles h

/-- A role is found where it is known. -/
theorem findRole_isSome (h : loadRoles serverConfig = .ok roles)
    (r : Bytes) :
    (roles.findRole r).isSome = true
      ↔ Named (roleElements serverConfig) r := by
  by_cases hnamed : Named (roleElements serverConfig) r
  · obtain ⟨role, hrole, -⟩ := findRole_loadRoles h hnamed
    exact iff_of_true (by rw [hrole]; rfl) hnamed
  · refine iff_of_false ?_ hnamed
    rw [findRole_eq_none h hnamed]
    exact Bool.false_ne_true

-- ================================================================= the law

/-- What is asked of `*`: the map answers as it would without the
definitions that are replaced, and a role whose definition in force has a
`*` is good for every protected route. -/
structure StarLaw (roleEls : List XMLElement) (roles keptRoles : Roles)
    (router : Router) : Prop where
  found : ∀ r, (roles.findRole r).isSome = (keptRoles.findRole r).isSome
  same : ∀ r a, roles.Grants r a ↔ keptRoles.Grants r a
  reaches : ∀ r e, LastOf roleEls r e → HasStar e →
    ∀ a, router.Protects a → roles.Grants r a

/-- It holds exactly where no expansion is left over and every `*` in
force reaches the access roles. -/
theorem star_law_iff (hload : loadRoles serverConfig = .ok roles)
    (hkept : roleElements kept = inForce (roleElements serverConfig))
    (hkeptLoad : loadRoles kept = .ok keptRoles)
    (hserver : initializeServer contentPath serverConfig errorPages
      = .ok srv) :
    StarLaw (roleElements serverConfig) roles keptRoles srv.router
      ↔ NoLeftover (roleElements serverConfig)
        ∧ StarReaches serverConfig := by
  have hgrants := grants_iff hload
  have hkeptGrants := grants_iff hkeptLoad
  rw [hkept] at hkeptGrants
  constructor
  · intro hlaw
    constructor
    · refine same_answers_iff.mp fun r a => ?_
      rw [← hgrants, ← hkeptGrants]
      exact hlaw.same r a
    · intro r e a hlast hstar hprotects
      have hgranted := hlaw.reaches r e hlast hstar a
        ((protects_iff hserver).mpr hprotects)
      obtain ⟨hnamed, heq | hincludes⟩ := (hgrants r a).mp hgranted
      · exact Or.inl (heq ▸ hnamed)
      · rcases (includes_of_last hlast).mp hincludes with hlisted | hfull
        · exact Or.inr hlisted
        · exact Or.inl hfull.2
  · intro h
    obtain ⟨hleftover, hreaches⟩ := h
    refine ⟨fun r => ?_, fun r a => ?_, fun r e hlast hstar a hprotects => ?_⟩
    · rw [Bool.eq_iff_iff, findRole_isSome hload, findRole_isSome hkeptLoad,
        hkept, named_inForce]
    · rw [hgrants, hkeptGrants]
      exact same_answers_iff.mpr hleftover r a
    · have hnamed : Named (roleElements serverConfig) r :=
        Or.inr ⟨e, hlast.mem, hlast.title⟩
      refine (hgrants r a).mpr ⟨hnamed, Or.inr ?_⟩
      rw [includes_of_last hlast]
      rcases hreaches r e a hlast hstar ((protects_iff hserver).mp hprotects)
        with hknown | hlisted
      · exact Or.inr ⟨⟨e, hlast.mem, hlast.title, hstar⟩, hknown⟩
      · exact Or.inl hlisted

-- =========================================================== two documents

/-- A document with these roles, and a protected route. -/
def guardedConfig (els : List XMLElement) (accessRole : String) :
    XMLElement :=
  .mk (bytes "ServerConfig") [] [.mk (bytes "Roles") [] els,
    .mk (bytes "Routes") []
      [.mk (bytes "Route")
        [(bytes "method", bytes "GET"), (bytes "endpoint", bytes "/my_api"),
          (bytes "script", bytes "my_api.py"),
          (bytes "protected", bytes "true"),
          (bytes "access_role", bytes accessRole)] []]]

/-- The roles of the README: an owner of all resources, and an editor. -/
def ownerConfig : XMLElement :=
  guardedConfig
    [roleOf "owner" ["*"], roleOf "editor" ["viewer", "user"]] "editor"

/-- Its owner is good for its route, and for what the definitions in force
say. -/
theorem star_law_owner :
    ∃ roles srv, loadRoles ownerConfig = .ok roles
      ∧ initializeServer [] ownerConfig ∅ = .ok srv
      ∧ StarLaw (roleElements ownerConfig) roles roles srv.router
      ∧ roles.Grants (bytes "owner") (bytes "editor") := by
  have howner : LastOf (roleElements ownerConfig) (bytes "owner")
      (roleOf "owner" ["*"]) :=
    ⟨[], [roleOf "editor" ["viewer", "user"]], rfl, rfl, by decide⟩
  have hstar : HasStar (roleOf "owner" ["*"]) :=
    ⟨_, List.mem_cons_self, rfl⟩
  -- There is one route, for editors.
  have hroute : ∀ route, RouteInForce ownerConfig route →
      roleOr route "access_role" adminRole = bytes "editor" := by
    intro route h
    obtain ⟨before, after, hsplit, -⟩ := h
    have hmem : route ∈ routeElements ownerConfig := by
      rw [hsplit]
      exact List.mem_append_right _ List.mem_cons_self
    obtain rfl := List.mem_singleton.mp hmem
    rfl
  obtain ⟨roles, hload⟩ : ∃ roles, loadRoles ownerConfig = .ok roles :=
    ⟨_, rfl⟩
  obtain ⟨srv, hserver⟩ : ∃ srv,
      initializeServer [] ownerConfig ∅ = .ok srv := ⟨_, rfl⟩
  have hkept : roleElements ownerConfig
      = inForce (roleElements ownerConfig) := rfl
  have hprotects : DocumentProtects ownerConfig (bytes "editor") :=
    ⟨_, ⟨[], [], rfl, by decide, by simp⟩, rfl, rfl⟩
  have hlaw := (star_law_iff hload hkept hload hserver).mpr ⟨?_, ?_⟩
  · exact ⟨roles, srv, hload, hserver, hlaw, hlaw.reaches _ _ howner hstar _
      ((protects_iff hserver).mpr hprotects)⟩
  -- The owner is the only role with a star.
  · intro r e hlast hnone h
    obtain ⟨f, hf, htitle, hfull⟩ := h
    rcases List.mem_cons.mp hf with rfl | hrest
    · subst htitle
      exact absurd (hlast.unique howner ▸ hstar) hnone
    · obtain rfl := List.mem_singleton.mp hrest
      obtain ⟨includeEl, hincl, htext⟩ := hfull
      exact absurd (List.any_eq_true.mpr ⟨includeEl, hincl, htext⟩)
        (by decide)
  · intro r e a _ _ h
    obtain ⟨route, hforce, -, rfl⟩ := h
    rw [hroute route hforce]
    exact Or.inl (Or.inr ⟨_, List.mem_cons_of_mem _ List.mem_cons_self, rfl⟩)

/-- A role that is defined again without its `*`, one that has a `*`, and
a route of an access role that nobody declared. -/
def leftoverConfig : XMLElement :=
  guardedConfig
    [roleOf "temp" ["*"], roleOf "temp" ["viewer"], roleOf "owner" ["*"]]
    "api_client"

/-- What is left of it without the definition that is replaced. -/
def leftoverKept : XMLElement :=
  rolesConfig [roleOf "temp" ["viewer"], roleOf "owner" ["*"]]

/-- The first role keeps the expansion of its earlier definition, and the
second is not good for the route. -/
theorem star_of_replaced_definition :
    ∃ roles keptRoles srv, loadRoles leftoverConfig = .ok roles
      ∧ roleElements leftoverKept = inForce (roleElements leftoverConfig)
      ∧ loadRoles leftoverKept = .ok keptRoles
      ∧ initializeServer [] leftoverConfig ∅ = .ok srv
      ∧ roles.Grants (bytes "temp") adminRole
      ∧ ¬ keptRoles.Grants (bytes "temp") adminRole
      ∧ srv.router.Protects (bytes "api_client")
      ∧ LastOf (roleElements leftoverConfig) (bytes "owner")
          (roleOf "owner" ["*"])
      ∧ ¬ roles.Grants (bytes "owner") (bytes "api_client") := by
  refine ⟨_, _, _, rfl, rfl, rfl, rfl, ⟨_, rfl, by decide⟩, ?_,
    ⟨⟨bytes "/my_api", .get⟩, _, rfl, rfl, rfl⟩,
    ⟨[roleOf "temp" ["*"], roleOf "temp" ["viewer"]], [], rfl, rfl,
      by decide⟩, ?_⟩
  · intro h
    obtain ⟨role, hrole, hin⟩ := h
    cases hrole
    exact absurd hin (by decide)
  · intro h
    obtain ⟨role, hrole, hin⟩ := h
    cases hrole
    exact absurd hin (by decide)

end CgiWebServer
