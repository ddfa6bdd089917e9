import LcsSystem.Auth.Roles

/-!
# Users and their role

Creating and changing users, assigning and removing the role of a user:
`src/backend/app/modules/auth/service.py:612-779,839-889`, `src/backend/app/core/security.py:43`. A call runs alone here;
`AdminRuns` takes the same checks apart into the statements of a transaction. Sessions and credentials are in
`Sessions`.
-/

namespace LcsSystem
open Relational Checks

/-! ## Passwords -/

/-- `password_min_length` and `password_max_length` of the settings. -/
structure PasswordPolicy where
  minLength : ℕ
  maxLength : ℕ

def commonPasswords : List String :=
  ["password", "password123", "changeme", "changeme123", "admin123", "letmein", "qwerty123"]

/-- `validate_password_strength`. -/
def validatePasswordStrength (policy : PasswordPolicy) (password : String) : List String :=
  let chars := password.toList
  let fails (p : Bool) (message : String) : List String := if p then [message] else []
  fails (chars.length < policy.minLength)
      ("Password must contain at least " ++ toString policy.minLength ++ " characters.") ++
    fails (policy.maxLength < chars.length)
      ("Password must not exceed " ++ toString policy.maxLength ++ " characters.") ++
    fails (commonPasswords.contains (String.ofList (chars.map Char.toLower))) "Password is too common." ++
    fails (!chars.any Char.isUpper) "Password must contain at least one uppercase letter." ++
    fails (!chars.any Char.isLower) "Password must contain at least one lowercase letter." ++
    fails (!chars.any Char.isDigit) "Password must contain at least one number." ++
    fails (chars.all Char.isAlphanum) "Password must contain at least one special character."

def checkPassword (policy : PasswordPolicy) (password : String) : AuthResult PUnit :=
  match validatePasswordStrength policy password with
  | [] => .ok ⟨⟩
  | message :: _ => .error (.invalid message [("password", message)])

/-! ## Guards -/

structure UserCreate where
  userCode : Option String
  username : String
  email : String
  displayName : String
  password : Option String
  roleCode : Option String
  status : String

structure UserUpdate where
  userCode : Option String
  email : Option String
  displayName : Option String
  status : Option String
  roleCode : Option String

/-- `_requested_role_codes`. -/
def requestedRoleCodes (roleCode : Option String) : Option (List String) :=
  roleCode.map fun code => if strip code = "" then [] else [strip code]

def roleByCode (db : AuthDb) (code : String) : Option Role := db.roles.values.find? fun role => role.code == code

/-- `_load_roles`. -/
def loadRoles (db : AuthDb) (codes : List String) : AuthResult (List Role) := do
  let unknown := codes.dedup.filter fun code => (roleByCode db code).isNone
  check (unknown = []) (.invalid ("Unknown role: " ++ ", ".intercalate unknown ++ ".") [("roles", "Unknown role")])
  let roles := codes.dedup.filterMap (roleByCode db)
  let inactive := roles.filter fun role => !isActive role.status
  check (inactive = []) (.invalid "The selected role is not active."
    [("roles", "Inactive role: " ++ ", ".intercalate (inactive.map Role.code))])
  return roles

/-- `_assert_can_assign_role`. -/
def assertCanAssignRole (db : AuthDb) (context : Context) (role : Role) : AuthResult PUnit :=
  assertCanGrantPermissions context (rolePermissionCodes db role.code)

/-- `_assert_can_touch_super_admin`. -/
def assertCanTouchSuperAdmin (context : Context) (current requested : List String) : AuthResult PUnit :=
  check (context.isPlatformAdmin = true ∨ (superAdminRole ∉ current ∧ superAdminRole ∉ requested))
    (.accessDenied "Only a super administrator can change a Super Administrator assignment.")

/-- A user other than `userId` that the check of the last super administrator counts. -/
def otherSuperAdmins (db : AuthDb) (userId : ℕ) : List ℕ :=
  (usersWithRole db superAdminRole).filter fun other =>
    other != userId && (db.users.get? other).any fun user => isActive user.status

/-- `_assert_super_admin_remains`. -/
def assertSuperAdminRemains (db : AuthDb) (userId : ℕ) (newCodes : List String) : AuthResult PUnit :=
  check (superAdminRole ∈ newCodes ∨ superAdminRole ∉ userRoleCodes db userId ∨ otherSuperAdmins db userId ≠ [])
    (.invalid "At least one Super Administrator must remain." [("roles", "Required")])

/-- The guards of a role that is given to a user. -/
def checkRoles (db : AuthDb) (context : Context) (codes : List String) : AuthResult PUnit := do
  codes.forM (assertCanManageProtectedRole context)
  let roles ← loadRoles db codes
  roles.forM (assertCanAssignRole db context)

/-! ## Creating and changing users -/

/-- The unique columns of a new user. -/
def checkUnique (db : AuthDb) (data : UserCreate) (userCode : String) : AuthResult PUnit := do
  check (∀ user ∈ db.users.values, user.email ≠ data.email)
    (.conflict "DUPLICATE_EMAIL" "A user with this email already exists." [("email", "Already in use")])
  check (∀ user ∈ db.users.values, user.username ≠ data.username)
    (.conflict "DUPLICATE_USERNAME" "A user with this username already exists." [("username", "Already in use")])
  check (∀ user ∈ db.users.values, user.userCode ≠ userCode)
    (.conflict "DUPLICATE_USER_CODE" "A user with this code already exists." [("userCode", "Already in use")])

def createUser (policy : PasswordPolicy) (db : AuthDb) (context : Context) (data : UserCreate) : AuthResult AuthDb := do
  let userCode := strip (match data.userCode with
    | none | some "" => upper data.username
    | some code => code)
  checkUnique db data userCode
  let codes := (requestedRoleCodes data.roleCode).getD []
  check (codes ≠ []) (.invalid "At least one role is required." [("roles", "Required")])
  checkRoles db context codes
  checkPassword policy (data.password.getD "")
  let status := upper (if data.status = "" then "ACTIVE" else data.status)
  let user : User := ⟨userCode, data.username, data.email, data.displayName, status, false⟩
  return setUserRoles { db with users := db.users.insert user } db.users.nextId codes

/-- What may not change of the built-in administrator. -/
def checkProtectedUser (user : User) (requested : Option (List String)) (status : Option String) : AuthResult PUnit := do
  check (user.isProtectedSystemAdmin = false ∨ requested.all fun codes => codes = [superAdminRole])
    (.accessDenied "The built-in System Administrator role cannot be changed.")
  check (user.isProtectedSystemAdmin = false ∨ status.all isActive)
    (.accessDenied "The built-in System Administrator cannot be deactivated.")

/-- The stripped user code of an update, if one is given. -/
def newUserCode (data : UserUpdate) : Option String := (data.userCode.map strip).filter fun code => code ≠ ""

def checkUserCode (db : AuthDb) (userId : ℕ) (data : UserUpdate) : AuthResult PUnit :=
  check (∀ code ∈ newUserCode data, ∀ row ∈ db.users.rows, row.2.userCode = code → row.1 = userId)
    (.conflict "DUPLICATE_USER_CODE" "A user with this code already exists." [("userCode", "Already in use")])

/-- A request that changes the roles. -/
def changesRoles (current : List String) (requested : Option (List String)) : Bool :=
  requested.any fun codes => codes.toFinset ≠ current.toFinset

def checkRoleChange (db : AuthDb) (context : Context) (userId : ℕ) (current codes : List String) : AuthResult PUnit := do
  check (context.userId ≠ userId) (.accessDenied "You cannot change your own roles.")
  assertCanTouchSuperAdmin context current codes
  checkRoles db context codes

def checkStatusChange (context : Context) (userId : ℕ) (current : List String) (status : String) : AuthResult PUnit := do
  check (context.userId ≠ userId ∨ isActive status = true)
    (.accessDenied "You cannot deactivate your own account.")
  check (isActive status = true ∨ context.isPlatformAdmin = true ∨ superAdminRole ∉ current)
    (.accessDenied "Only a super administrator can change a Super Administrator assignment.")

/-- The columns that an update sets. -/
def UserUpdate.applyTo (data : UserUpdate) (user : User) : User :=
  { user with
    userCode := (newUserCode data).getD user.userCode
    email := data.email.getD user.email
    displayName := data.displayName.getD user.displayName
    status := (data.status.map upper).getD user.status }

def updateUserRoles (db : AuthDb) (context : Context) (userId : ℕ) (current : List String)
    (requested : Option (List String)) : AuthResult AuthDb :=
  match requested with
  | none => .ok db
  | some codes =>
    if changesRoles current requested then do
      checkRoleChange db context userId current codes
      assertSuperAdminRemains db userId codes
      return setUserRoles db userId codes
    else .ok db

def updateUserStatus (db : AuthDb) (context : Context) (userId : ℕ) (current : List String) (status : Option String) :
    AuthResult PUnit :=
  match status with
  | none => .ok ⟨⟩
  | some status => do
    checkStatusChange context userId current status
    if isActive status then .ok ⟨⟩ else assertSuperAdminRemains db userId []

def updateUser (db : AuthDb) (context : Context) (userId : ℕ) (data : UserUpdate) : AuthResult AuthDb := do
  let user ← require (db.users.get? userId) (.notFound "User not found.")
  let requested := requestedRoleCodes data.roleCode
  let current := userRoleCodes db userId
  checkProtectedUser user requested data.status
  checkUserCode db userId data
  let db ← updateUserRoles db context userId current requested
  updateUserStatus db context userId current data.status
  return { db with users := db.users.modify userId data.applyTo }

/-! ## Role assignments -/

structure RoleAssignmentCreate where
  roleId : Option ℕ
  roleCode : Option String

/-- The role of an assignment: by its id, else by its code. -/
def assignedRole (db : AuthDb) (data : RoleAssignmentCreate) : Option Role :=
  match data.roleId, data.roleCode with
  | some (id + 1), _ => db.roles.get? (id + 1)
  | _, none | _, some "" => none
  | _, some code => roleByCode db code

/-- The guards of an assignment that do not depend on what the user has. -/
def checkAssignedRole (context : Context) (user : User) (role : Role) : AuthResult PUnit := do
  check (isActive role.status = true) (.invalid "The selected role is not active." [("role", "Role is inactive")])
  check (user.isProtectedSystemAdmin = false ∨ role.code = superAdminRole)
    (.accessDenied "The built-in System Administrator role cannot be changed.")
  assertCanManageProtectedRole context role.code

def checkAssignment (db : AuthDb) (context : Context) (userId : ℕ) (current : List String) (role : Role) :
    AuthResult PUnit := do
  check (context.userId ≠ userId) (.accessDenied "You cannot change your own roles.")
  assertCanTouchSuperAdmin context current [role.code]
  assertCanAssignRole db context role

def assignRole (db : AuthDb) (context : Context) (userId : ℕ) (data : RoleAssignmentCreate) : AuthResult AuthDb := do
  let user ← require (db.users.get? userId) (.notFound "User not found.")
  let role ← require (assignedRole db data) (.notFound "Role not found.")
  checkAssignedRole context user role
  let current := userRoleCodes db userId
  if role.code ∈ current then return db
  else do
    checkAssignment db context userId current role
    assertSuperAdminRemains db userId [role.code]
    return setUserRoles db userId [role.code]

/-- The guards of taking a role away. -/
def checkRemoval (context : Context) (user : User) (userId : ℕ) (current : List String) (roleCode : String) :
    AuthResult PUnit := do
  check (roleCode ∈ current) (.notFound "Role assignment not found.")
  check (user.isProtectedSystemAdmin = false)
    (.accessDenied "The built-in System Administrator role cannot be changed.")
  check (context.userId ≠ userId) (.accessDenied "You cannot change your own roles.")
  assertCanTouchSuperAdmin context current []

def removeRole (db : AuthDb) (context : Context) (userId : ℕ) (roleCode : String) : AuthResult AuthDb := do
  let user ← require (db.users.get? userId) (.notFound "User not found.")
  let current := userRoleCodes db userId
  checkRemoval context user userId current roleCode
  let remaining := current.filter fun code => code ≠ roleCode
  assertSuperAdminRemains db userId remaining
  return setUserRoles db userId remaining

end LcsSystem
