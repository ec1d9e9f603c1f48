/-
Loading the roles (config.cpp, `Config::loadRoles`).

The map starts with the three built-in roles. Every `Role` element
replaces what stands under its title. An `Includes` element of the text
`*` ends the element's list and enters the role for the second pass,
which adds the title of every role of the map.
-/
import CgiWebServer.Config

namespace CgiWebServer

/-- `cfg::Roles`. The order of an `std::unordered_map` is arbitrary; only
what it holds is used. -/
abbrev Roles := AList fun _ : Bytes => Role

def userRole : Bytes := bytes "user"

/-- `VIEWER`, `USER` and `ADMIN`. -/
def viewer : Role := { title := viewerRole }
def user : Role := { title := userRole, includes := [viewerRole] }
def admin : Role := { title := adminRole, includes := [userRole, viewerRole] }

/-- The roles the map starts with. -/
def builtInRoles : Roles :=
  (((∅ : Roles).insert adminRole admin).insert userRole user).insert
    viewerRole viewer

/-- `findRole`. -/
def Roles.findRole (roles : Roles) (role : Bytes) : Option Role :=
  roles.lookup role

/-- The inner loop of `loadRoles`: the roles the `Includes` elements list
up to a `*`, and whether there is one. Elements without a text are passed
over. -/
def loadIncludes : List XMLElement → List Bytes × Bool
  | [] => ([], false)
  | includeEl :: rest =>
      match includeEl.text with
      | none => loadIncludes rest
      | some includeRole =>
          if includeRole = bytes "*" then ([], true)
          else
            let (includes, full) := loadIncludes rest
            (includeRole :: includes, full)

/-- The map while it is loaded, and `full_include_roles`: pointers to
entries of the map, which stay where they are, so the titles they are
under. -/
structure RoleTable where
  roles : Roles
  fullIncludeRoles : List Bytes := []

/-- The body of the `while` of `loadRoles`. -/
def loadRole (t : RoleTable) (roleEl : XMLElement) :
    Except Abort RoleTable :=
  let roleTitle := attributeOrEmpty roleEl "title"
  if roleTitle.isEmpty then fatal "xml error: role is missing title"
  else
    let (includes, addToFullIncludeRoles) :=
      loadIncludes (roleEl.childElements (bytes "Includes"))
    .ok {
      roles := t.roles.insert roleTitle
        { title := roleTitle, includes := includes }
      fullIncludeRoles := t.fullIncludeRoles
        ++ if addToFullIncludeRoles then [roleTitle] else [] }

/-- The body of the loop over `full_include_roles`: the titles of the map
are appended to the entry's `includes`. -/
def includeAll (roles : Roles) (title : Bytes) : Roles :=
  match roles.lookup title with
  | none => roles
  | some role =>
      roles.insert title { role with includes := role.includes ++ roles.keys }

/-- `loadRoles`. -/
def loadRoles (serverConfig : XMLElement) : Except Abort Roles :=
  match serverConfig.firstChildElement (bytes "Roles") with
  | none => .ok builtInRoles
  | some roleConfig => do
      let t ← (roleConfig.childElements (bytes "Role")).foldlM loadRole
        { roles := builtInRoles }
      return t.fullIncludeRoles.foldl includeAll t.roles

end CgiWebServer
