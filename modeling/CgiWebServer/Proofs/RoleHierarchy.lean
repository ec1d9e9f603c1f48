/-
What a role inherits: the roles behind the roles it includes.

The README calls the roles hierarchical, so a role should be good for
whatever is reachable from it over `Includes` edges. The map keeps flat
lists and `includesRole` looks into one of them, so it answers for one
edge only. The two agree for a role exactly where its own list, with the
role itself, is closed under the edges (`flat_iff_closed`), as the lists
of the built-in roles are.
-/
import Mathlib.Data.List.TakeWhile
import Mathlib.Logic.Relation
import CgiWebServer.Proofs.Roles

namespace CgiWebServer

open Relation (ReflTransGen)

-- ============================================================ flat and deep

section Flat

variable {α : Type} {edge : α → α → Prop} {r : α}

/-- What is closed under the edges keeps everything it reaches. -/
theorem mem_of_reach {S : α → Prop} (hclosed : ∀ m a, S m → edge m a → S a)
    {a b : α} (ha : S a) (hreach : ReflTransGen edge a b) : S b := by
  induction hreach with
  | refl => exact ha
  | tail _ hedge ih => exact hclosed _ _ ih hedge

/-- A node and its direct successors are all it reaches exactly where a
second edge leads nowhere new. -/
theorem flat_iff_closed :
    (∀ a, (a = r ∨ edge r a) ↔ ReflTransGen edge r a)
      ↔ ∀ m a, edge r m → edge m a → a = r ∨ edge r a := by
  constructor
  · intro h m a hm ha
    exact (h a).mpr ((ReflTransGen.single hm).tail ha)
  · intro hclosed a
    constructor
    · intro h
      rcases h with rfl | hedge
      · exact .refl
      · exact .single hedge
    · refine mem_of_reach (S := fun a => a = r ∨ edge r a) ?_ (Or.inl rfl)
      rintro m b (rfl | hm) hb
      · exact Or.inr hb
      · exact hclosed m b hm hb

end Flat

-- ================================================================== edges

/-- The `Includes` edges: from the title of a `Role` element to the text
of one of its `Includes`, and those of a built-in role that no element
redefines. -/
inductive IncludesEdge (els : List XMLElement) (r a : Bytes) : Prop
  | declared {e includeEl : XMLElement} : e ∈ els → roleTitle e = r →
      includeEl ∈ includesOf e → includeEl.text = some a →
      IncludesEdge els r a
  | builtIn {role : Role} : (∀ e ∈ els, roleTitle e ≠ r) →
      builtInRoles.lookup r = some role → a ∈ role.includes →
      IncludesEdge els r a

/-- `a` is reached from `r` by zero or more edges. -/
def Inherits (els : List XMLElement) : Bytes → Bytes → Prop :=
  ReflTransGen (IncludesEdge els)

/-- Roles with explicit `Includes`: none has a `*`, and no title is used
twice. -/
structure Explicit (els : List XMLElement) : Prop where
  noStar : ∀ e ∈ els, ¬ HasStar e
  distinct : (els.map roleTitle).Nodup

variable {els : List XMLElement} {r a : Bytes}

/-- Without a `*` all texts are listed. -/
theorem mem_listed_of_noStar {e : XMLElement} (h : ¬ HasStar e) :
    a ∈ listed e ↔ ∃ includeEl ∈ includesOf e, includeEl.text = some a := by
  have hall : (includesOf e).takeWhile (fun e => !isStar e)
      = includesOf e := by
    refine List.takeWhile_eq_self_iff.mpr fun includeEl hin => ?_
    rw [Bool.not_eq_true']
    exact Bool.eq_false_iff.mpr fun hstar => h ⟨includeEl, hin, hstar⟩
  rw [listed, hall, List.mem_filterMap]

/-- Where titles are distinct, an element is the last of its title. -/
theorem Explicit.split (h : Explicit els) {e : XMLElement} (he : e ∈ els) :
    ∃ before after, els = before ++ e :: after
      ∧ ∀ later ∈ after, roleTitle later ≠ roleTitle e := by
  obtain ⟨before, after, hsplit⟩ := List.append_of_mem he
  refine ⟨before, after, hsplit, fun later hlater heq => ?_⟩
  have hdistinct := h.distinct
  rw [hsplit, List.map_append, List.map_cons] at hdistinct
  obtain ⟨-, htail, -⟩ := List.nodup_append.mp hdistinct
  have hnew := (List.nodup_cons.mp htail).1
  exact hnew (heq ▸ List.mem_map_of_mem hlater)

/-- What a role with explicit `Includes` includes: its edges. -/
theorem Explicit.includes_iff (h : Explicit els) :
    Includes els r a ↔ IncludesEdge els r a := by
  constructor
  · intro hin
    cases hin with
    | builtIn hnone hentry hlist => exact .builtIn hnone hentry hlist
    | listed hsplit htitle _ hlist =>
        have hmem := hsplit ▸ List.mem_append_right _ List.mem_cons_self
        obtain ⟨includeEl, hincl, htext⟩ :=
          (mem_listed_of_noStar (h.noStar _ hmem)).mp hlist
        exact .declared hmem htitle hincl htext
    | full hmem _ hstar => exact absurd hstar (h.noStar _ hmem)
  · intro hedge
    cases hedge with
    | declared hmem htitle hincl htext =>
        obtain ⟨before, after, hsplit, hlater⟩ := h.split hmem
        refine .listed hsplit htitle (htitle ▸ hlater) ?_
        exact (mem_listed_of_noStar (h.noStar _ hmem)).mpr
          ⟨_, hincl, htext⟩
    | builtIn hnone hentry hlist => exact .builtIn hnone hentry hlist

-- ============================================================== hierarchy

variable {serverConfig : XMLElement} {roles : Roles} {role : Role}

/-- A loaded role answers for itself and for its edges. -/
theorem includesRole_edges (hload : loadRoles serverConfig = .ok roles)
    (hexplicit : Explicit (roleElements serverConfig))
    (hrole : roles.findRole r = some role) (a : Bytes) :
    role.includesRole a = true
      ↔ a = r ∨ IncludesEdge (roleElements serverConfig) r a := by
  have hnamed : Named (roleElements serverConfig) r := by
    by_contra hnot
    cases (findRole_eq_none hload hnot).symm.trans hrole
  obtain ⟨found, hfound, htitle, hincludes⟩ :=
    findRole_loadRoles hload hnamed
  obtain rfl : found = role := Option.some.inj (hfound.symm.trans hrole)
  rw [includesRole_iff, htitle, hincludes a, hexplicit.includes_iff]
  exact or_congr_left eq_comm

/-- A role is good for whatever it inherits exactly where it lists what
the roles it lists do. -/
theorem role_hierarchy_iff (hload : loadRoles serverConfig = .ok roles)
    (hexplicit : Explicit (roleElements serverConfig))
    (hrole : roles.findRole r = some role) :
    (∀ a, role.includesRole a = true
        ↔ Inherits (roleElements serverConfig) r a)
      ↔ ∀ m a, IncludesEdge (roleElements serverConfig) r m →
          IncludesEdge (roleElements serverConfig) m a →
          a = r ∨ IncludesEdge (roleElements serverConfig) r a := by
  simp only [includesRole_edges hload hexplicit hrole]
  exact flat_iff_closed

-- =========================================================== two documents

/-- A `Role` element with explicit `Includes`. -/
def roleOf (title : String) (includes : List String) : XMLElement :=
  .mk (bytes "Role") [(bytes "title", bytes title)]
    (includes.map fun text =>
      .mk (bytes "Includes") [] [] (some (bytes text)))

/-- A document with these roles. -/
def rolesConfig (els : List XMLElement) : XMLElement :=
  .mk (bytes "ServerConfig") [] [.mk (bytes "Roles") [] els]

/-- The editor of the README includes `viewer` and `user`, and `user`
includes `viewer`. -/
def editorConfig : XMLElement :=
  rolesConfig [roleOf "editor" ["viewer", "user"]]

/-- Its edges from `editor`. -/
theorem edge_editor {m : Bytes} :
    IncludesEdge (roleElements editorConfig) (bytes "editor") m
      ↔ m = viewerRole ∨ m = userRole := by
  constructor
  · intro hedge
    cases hedge with
    | declared hmem _ hincl htext =>
        obtain rfl := List.mem_singleton.mp hmem
        rcases List.mem_cons.mp hincl with rfl | hrest
        · exact Or.inl (Option.some.inj htext).symm
        · obtain rfl := List.mem_singleton.mp hrest
          exact Or.inr (Option.some.inj htext).symm
    | builtIn hnone => exact absurd rfl (hnone _ List.mem_cons_self)
  · intro h
    rcases h with rfl | rfl
    · exact .declared List.mem_cons_self rfl List.mem_cons_self rfl
    · exact .declared List.mem_cons_self rfl
        (List.mem_cons_of_mem _ List.mem_cons_self) rfl

/-- The editor inherits what it lists. -/
theorem role_hierarchy_editor :
    ∃ roles role, loadRoles editorConfig = .ok roles
      ∧ roles.findRole (bytes "editor") = some role
      ∧ ∀ a, role.includesRole a = true
        ↔ Inherits (roleElements editorConfig) (bytes "editor") a := by
  refine ⟨_, { title := bytes "editor", includes := [viewerRole, userRole] },
    rfl, rfl, ?_⟩
  refine (role_hierarchy_iff rfl ⟨?_, by decide⟩ rfl).mpr ?_
  · intro e he h
    obtain ⟨includeEl, hincl, hstar⟩ := h
    obtain rfl := List.mem_singleton.mp he
    exact absurd (List.any_eq_true.mpr ⟨includeEl, hincl, hstar⟩) (by decide)
  · intro m a hm ha
    right
    rw [edge_editor] at hm ⊢
    cases ha with
    | declared hmem htitle =>
        obtain rfl := List.mem_singleton.mp hmem
        subst htitle
        exact absurd hm (by decide)
    | builtIn _ hentry hlist =>
        rcases hm with rfl | rfl
        · cases hentry
          cases hlist
        · cases hentry
          exact Or.inl (List.mem_singleton.mp hlist)

/-- A chief editor who includes the editor. -/
def chiefConfig : XMLElement :=
  rolesConfig [roleOf "chief" ["editor"], roleOf "editor" ["user"]]

/-- The chief editor is not good for what the editor is good for. -/
theorem role_chain_not_inherited :
    ∃ roles role, loadRoles chiefConfig = .ok roles
      ∧ Explicit (roleElements chiefConfig)
      ∧ roles.findRole (bytes "chief") = some role
      ∧ Inherits (roleElements chiefConfig) (bytes "chief") userRole
      ∧ role.includesRole userRole = false := by
  refine ⟨_, { title := bytes "chief", includes := [bytes "editor"] },
    rfl, ⟨?_, by decide⟩, rfl, ?_, by decide⟩
  · intro e he h
    obtain ⟨includeEl, hincl, hstar⟩ := h
    have hany := List.any_eq_true.mpr ⟨includeEl, hincl, hstar⟩
    rcases List.mem_cons.mp he with rfl | hrest
    · exact absurd hany (by decide)
    · obtain rfl := List.mem_singleton.mp hrest
      exact absurd hany (by decide)
  · have hchief : IncludesEdge (roleElements chiefConfig) (bytes "chief")
        (bytes "editor") :=
      .declared List.mem_cons_self rfl List.mem_cons_self rfl
    have heditor : IncludesEdge (roleElements chiefConfig) (bytes "editor")
        userRole :=
      .declared (List.mem_cons_of_mem _ List.mem_cons_self) rfl
        List.mem_cons_self rfl
    exact (ReflTransGen.single hchief).tail heditor

end CgiWebServer
