import LcsSystem.Auth.Models

/-!
# Roles and their grants

Creating, changing, duplicating and deleting roles, and the three ways to change their grants:
`src/backend/app/modules/auth/service.py:103-126,920-1020,1068-1215`. A call runs alone here; its errors are those of
the source, and a refused call is rolled back.
-/

namespace LcsSystem
open Relational Checks

/-- What a call knows of the user who acts. -/
structure Context where
  userId : ℕ
  isPlatformAdmin : Bool
  /-- `has_permission`. -/
  hasPermission : PermissionCode → Bool

def contextOf (db : AuthDb) (userId : ℕ) : Context := ⟨userId, can db userId .wildcard, can db userId⟩

/-! ## Guards -/

/-- A code of `ALL_PERMISSION_CODES`, or the wildcard. -/
def PermissionCode.isKnown (code : PermissionCode) : Bool := code.inCatalog || code == .wildcard

def isProtectedRole (roleCode : String) : Bool := roleCode == superAdminRole

/-- The texts in order, joined by commas. -/
def joinedCodes (codes : Finset PermissionCode) : String :=
  ", ".intercalate ((codes.image PermissionCode.text).sort (· ≤ ·))

/-- `_assert_can_manage_protected_role`. -/
def assertCanManageProtectedRole (context : Context) (roleCode : String) : AuthResult PUnit :=
  check (isProtectedRole roleCode = false ∨ context.isPlatformAdmin = true)
    (.accessDenied ("Only a super administrator can modify the " ++ roleCode ++ " role."))

/-- `_assert_can_grant_permissions`. -/
def assertCanGrantPermissions (context : Context) (codes : Finset PermissionCode) : AuthResult PUnit :=
  let missing := (resolveRoleCodes codes).filter fun code => !context.hasPermission code
  check (context.isPlatformAdmin = true ∨ missing = ∅)
    (.accessDenied ("You cannot grant permissions that you do not hold: " ++ joinedCodes missing))

/-- `_validate_permission_codes`. -/
def validatePermissionCodes (codes : Finset PermissionCode) : AuthResult PUnit :=
  let unknown := codes.filter fun code => !code.isKnown
  check (unknown = ∅)
    (.invalid ("Unknown permission(s): " ++ joinedCodes unknown ++ ".") [("permissions", "Unknown permission")])

/-- `deletion.require_inactive`. -/
def requireInactive (status label : String) : AuthResult PUnit :=
  check (upper (strip status) ≠ "ACTIVE")
    (.conflict "RECORD_ACTIVE" ("Active " ++ label ++ " cannot be deleted. Deactivate the record first.") [])

/-! ## The grants of a role -/

/-- The set that is stored for submitted codes. -/
def storedCodes (codes : Finset PermissionCode) : Finset PermissionCode :=
  if .wildcard ∈ codes then {PermissionCode.wildcard} else resolveRoleCodes codes

/-- `sync_role_permissions`. -/
def syncRolePermissions (db : AuthDb) (roleCode : String) (codes : Finset PermissionCode) : AuthResult AuthDb := do
  validatePermissionCodes codes
  let protectedRole := db.roles.values.any fun role => role.code == roleCode && isProtectedRole role.code
  check (protectedRole = false ∨ .wildcard ∈ codes)
    (.accessDenied "The protected super administrator grant cannot be removed.")
  return setRolePermissions db roleCode (storedCodes codes)

def lockedRole (db : AuthDb) (context : Context) (roleId : ℕ) : AuthResult Role := do
  let role ← require (db.roles.get? roleId) (.notFound "Role not found.")
  assertCanManageProtectedRole context role.code
  return role

def replaceRolePermissions (db : AuthDb) (context : Context) (roleId : ℕ) (codes : Finset PermissionCode) :
    AuthResult AuthDb := do
  let role ← lockedRole db context roleId
  validatePermissionCodes codes
  assertCanGrantPermissions context codes
  syncRolePermissions db role.code codes

def grantRolePermissions (db : AuthDb) (context : Context) (roleId : ℕ) (codes : Finset PermissionCode) :
    AuthResult AuthDb := do
  let role ← lockedRole db context roleId
  validatePermissionCodes codes
  assertCanGrantPermissions context codes
  syncRolePermissions db role.code (rolePermissionCodes db role.code ∪ codes)

/-- The codes that revoking `codes` takes away. -/
def revokedCodes (codes : Finset PermissionCode) : Finset PermissionCode :=
  codes.biUnion fun code => insert code.stripped (compileRolePermissions {code.stripped})

def revokeRolePermissions (db : AuthDb) (context : Context) (roleId : ℕ) (codes : Finset PermissionCode) :
    AuthResult AuthDb := do
  let role ← lockedRole db context roleId
  check (isProtectedRole role.code = false)
    (.accessDenied "The protected super administrator grant cannot be removed.")
  syncRolePermissions db role.code (rolePermissionCodes db role.code \ revokedCodes codes)

/-! ## Creating and changing a role -/

/-- `re.sub(r"[^A-Za-z0-9]+", "_", text)`. -/
def underscored : List Char → List Char
  | [] => []
  | c :: cs =>
    if c.isAlphanum then c :: underscored cs
    else match underscored cs with
      | '_' :: rest => '_' :: rest
      | rest => '_' :: rest

/-- `_derive_role_code`. -/
def deriveRoleCode (name : String) (existing : List String) : String :=
  let text := ((underscored name.toList).dropWhile (· == '_')).rdropWhile (· == '_')
  let base := if text = [] then "ROLE".toList else (text.map Char.toUpper).take 48
  let suffixed (i : ℕ) :=
    let token := ("_" ++ toString (i + 2)).toList
    String.ofList (base.take (64 - token.length) ++ token)
  if String.ofList base ∉ existing then String.ofList base
  else (((List.range (existing.length + 1)).map suffixed).find? fun code => code ∉ existing).getD (String.ofList base)

structure RoleCreate where
  name : String
  code : Option String
  description : Option String
  permissions : Finset PermissionCode

structure RoleUpdate where
  name : Option String
  description : Option String
  status : Option String
  permissions : Option (Finset PermissionCode)

structure RoleDuplicate where
  name : Option String
  code : Option String

def createRole (db : AuthDb) (context : Context) (data : RoleCreate) : AuthResult AuthDb := do
  let name := strip data.name
  check (name ≠ "") (.invalid "A role name is required." [("name", "Required")])
  let requested := strip (data.code.getD "")
  let code := upper (if requested = "" then deriveRoleCode name (db.roles.values.map Role.code) else requested)
  assertCanManageProtectedRole context code
  check (∀ role ∈ db.roles.values, role.code ≠ code)
    (.conflict "DUPLICATE_ROLE" "A role with this code already exists." [("code", "Already in use")])
  validatePermissionCodes data.permissions
  assertCanGrantPermissions context data.permissions
  syncRolePermissions { db with roles := db.roles.insert ⟨code, name, data.description, "ACTIVE"⟩ } code
    data.permissions

def duplicateRole (db : AuthDb) (context : Context) (roleId : ℕ) (data : RoleDuplicate) : AuthResult AuthDb := do
  let source ← require (db.roles.get? roleId) (.notFound "Role not found.")
  let permissions := rolePermissionCodes db source.code
  assertCanGrantPermissions context permissions
  let name := strip (match data.name with
    | none | some "" => source.name ++ " Copy"
    | some name => name)
  createRole db context ⟨name, data.code, source.description, permissions⟩

/-- The guards of a status change. -/
def checkRoleStatus (db : AuthDb) (role : Role) (status : Option String) : AuthResult PUnit := do
  let deactivates := status.any fun status => !isActive status
  check (isProtectedRole role.code = false ∨ deactivates = false)
    (.accessDenied ("The protected " ++ role.code ++ " role cannot be deactivated."))
  let activeUsers := (usersWithRole db role.code).filter fun id =>
    (db.users.get? id).any fun user => isActive user.status
  check (deactivates = false ∨ activeUsers = [])
    (.conflict "ROLE_IN_USE" "Reassign active users before deactivating this role." [])

def updateRole (db : AuthDb) (context : Context) (roleId : ℕ) (data : RoleUpdate) : AuthResult AuthDb := do
  let role ← lockedRole db context roleId
  checkRoleStatus db role data.status
  check (isProtectedRole role.code = false ∨ data.permissions.all fun codes => .wildcard ∈ codes)
    (.accessDenied "The protected super administrator grant cannot be removed.")
  let db := { db with
    roles := db.roles.modify roleId fun role => { role with
      name := data.name.getD role.name
      description := data.description.or role.description
      status := (data.status.map upper).getD role.status } }
  match data.permissions with
  | none => return db
  | some codes =>
    validatePermissionCodes codes
    assertCanGrantPermissions context codes
    syncRolePermissions db role.code codes

def deleteRoles (db : AuthDb) (ids : List ℕ) : AuthResult AuthDb := do
  let roles := ids.dedup.filterMap db.roles.get?
  check (∀ role ∈ roles, isProtectedRole role.code = false)
    (.accessDenied "The protected super administrator role cannot be deleted.")
  roles.forM fun role => requireInactive role.status "role"
  check (∀ role ∈ roles, usersWithRole db role.code = []) (.conflict "ROLE_IN_USE"
    "A role assigned to a user cannot be deleted. Reassign its users first." [])
  let db := roles.foldl (fun db role => deleteRolePolicies db role.code) db
  return { db with roles := db.roles.erase fun id _ => ids.contains id }

end LcsSystem
