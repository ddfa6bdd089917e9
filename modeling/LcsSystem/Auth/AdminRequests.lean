import LcsSystem.Auth.Users
import LcsSystem.Lib.Transactions

/-!
# The last super administrator

`update_user`, `assign_role`, `remove_role`, `delete_users`, `update_role` and `delete_roles` of
`src/backend/app/modules/auth/service.py` side by side. `_assert_super_admin_remains` (655-679) locks the row of the role
`SUPER_ADMIN` before it reads; `delete_users` takes no lock. A row that a session has loaded is not read again while
something refers to it: where that is so of the acting user, the check sees that user as the request has found it at its
start.

| here                 | there                                                                      |
|----------------------|----------------------------------------------------------------------------|
| `AdminTxn.own`       | the row of the acting user, loaded in `src/backend/app/core/deps.py:78`    |
| `AdminStage.planned` | behind the guards; then the next check, or the writes and their commit     |
| `AdminStage.current` | the lock is held; `user_role_codes`                                        |
| `AdminStage.holders` | `users_with_role`                                                          |
| `AdminStage.rows`    | the rows of the other holders                                              |
| `UserPlan.write`     | `_apply_user_roles` and the columns that differ from the loaded row        |

The guards of a request are read at once, and so are the targets of a deletion and the holders it counts. The roles of
`update_role` and `delete_roles` are changed in one step. Locks on the rows of users are left out: they only make a request
wait.
-/

namespace LcsSystem
open Relational Checks Transactions

/-! ## Requests -/

inductive UserRequest
  | update (data : UserUpdate)
  | assign (data : RoleAssignmentCreate)
  | remove (roleCode : String)

inductive AdminRequest
  | user (userId : ℕ) (request : UserRequest)
  | deleteUsers (ids : List ℕ)
  | updateRole (roleId : ℕ) (data : RoleUpdate)
  | deleteRoles (ids : List ℕ)

structure AdminCall where
  context : Context
  request : AdminRequest
  /-- The row of the acting user is still referenced when the service looks for it. -/
  keepsOwn : Bool

/-- What a request on a user is going to write, and the checks of the last super administrator before it. -/
structure UserPlan where
  userId : ℕ
  /-- The row as it was loaded. -/
  loaded : User
  roles : Option (List String)
  data : Option UserUpdate
  roleCheck : Bool
  statusCheck : Bool
  /-- The row of the role is locked. -/
  locked : Bool

inductive AdminStage
  | opened
  | targets
  | guards (userId : ℕ) (request : UserRequest) (loaded : User)
  | planned (plan : UserPlan)
  | current (plan : UserPlan)
  | holders (plan : UserPlan)
  | rows (plan : UserPlan) (ids : List ℕ)
  | deleting (ids : List ℕ) (users : List (ℕ × User))
  | deletes (users : List (ℕ × User))

structure AdminTxn where
  call : AdminCall
  own : Option User
  stage : AdminStage

/-! ## Statements -/

/-- `session.get(User, …)`. -/
def AdminTxn.rowOf (t : AdminTxn) (db : AuthDb) (id : ℕ) : Option User :=
  if t.call.keepsOwn = true ∧ id = t.call.context.userId then t.own else db.users.get? id

/-- The guards of an update. -/
def checkUpdate (db : AuthDb) (context : Context) (userId : ℕ) (loaded : User) (data : UserUpdate) : AuthResult PUnit.{1} := do
  let requested := requestedRoleCodes data.roleCode
  let current := userRoleCodes db userId
  checkProtectedUser loaded requested data.status
  checkUserCode db userId data
  if changesRoles current requested then checkRoleChange db context userId current (requested.getD []) else .ok ⟨⟩
  match data.status with
  | some status => checkStatusChange context userId current status
  | none => .ok ⟨⟩

/-- The guards of a request, and what they let through. -/
def planOf (db : AuthDb) (context : Context) (userId : ℕ) (loaded : User) : UserRequest → AuthResult UserPlan
  | .update data => do
    checkUpdate db context userId loaded data
    let requested := requestedRoleCodes data.roleCode
    let changes := changesRoles (userRoleCodes db userId) requested
    return {
      userId
      loaded
      roles := if changes then requested else none
      data := some data
      roleCheck := changes
      statusCheck := data.status.any fun status => !isActive status
      locked := false }
  | .assign data => do
    let role ← require (assignedRole db data) (.notFound "Role not found.")
    checkAssignedRole context loaded role
    let current := userRoleCodes db userId
    if role.code ∈ current then return ⟨userId, loaded, none, none, false, false, false⟩
    else do
      checkAssignment db context userId current role
      return ⟨userId, loaded, some [role.code], none, true, false, false⟩
  | .remove roleCode => do
    let current := userRoleCodes db userId
    checkRemoval context loaded userId current roleCode
    return ⟨userId, loaded, some (current.filter fun code => code ≠ roleCode), none, true, false, false⟩

namespace UserPlan

/-- The plan behind the check that is its next one. -/
def passed (plan : UserPlan) : UserPlan :=
  if plan.roleCheck then { plan with roleCheck := false } else { plan with statusCheck := false }

/-- `new_codes` of the next check. -/
def newCodes (plan : UserPlan) : List String := if plan.roleCheck then plan.roles.getD [] else []

def locks (plan : UserPlan) : List Unit := if plan.locked then [()] else []

/-- The roles that the next check finds: the status is checked behind the plan's own roles. -/
def rolesNow (plan : UserPlan) (db : AuthDb) : List String :=
  if plan.roleCheck then userRoleCodes db plan.userId else plan.roles.getD (userRoleCodes db plan.userId)

/-- A flush writes the columns that differ from the loaded row. -/
def flushed (plan : UserPlan) (data : UserUpdate) (row : User) : User :=
  let applied := data.applyTo plan.loaded
  { row with
    userCode := if applied.userCode = plan.loaded.userCode then row.userCode else applied.userCode
    email := if applied.email = plan.loaded.email then row.email else applied.email
    displayName := if applied.displayName = plan.loaded.displayName then row.displayName else applied.displayName
    status := if applied.status = plan.loaded.status then row.status else applied.status }

def writeRoles (plan : UserPlan) (db : AuthDb) : AuthDb :=
  match plan.roles with
  | some codes => setUserRoles db plan.userId codes
  | none => db

def write (plan : UserPlan) (db : AuthDb) : AuthDb :=
  match plan.data with
  | some data => { plan.writeRoles db with users := db.users.modify plan.userId (plan.flushed data) }
  | none => plan.writeRoles db

end UserPlan

/-- The guards of a deletion; it counts the holders of the role that it does not delete. -/
def AdminTxn.checkDeletion (t : AdminTxn) (db : AuthDb) (ids : List ℕ) (users : List (ℕ × User)) :
    AuthResult PUnit.{1} := do
  check (∀ row ∈ users, row.2.isProtectedSystemAdmin = false)
    (.accessDenied "The built-in System Administrator account cannot be deleted.")
  check (t.call.context.userId ∉ ids) (.accessDenied "You cannot delete your own account.")
  let admins := usersWithRole db superAdminRole
  let targets := users.map Prod.fst
  check ((∀ id ∈ admins, id ∉ targets) ∨ ∃ id ∈ admins, id ∉ targets ∧ (t.rowOf db id).any (fun user => isActive user.status) = true)
    (.invalid "At least one Super Administrator must remain." [])
  users.forM fun row => requireInactive row.2.status "user"

def deleteUserRows (db : AuthDb) (users : List (ℕ × User)) : AuthDb :=
  let ids := users.map Prod.fst
  { ids.foldl deleteUserPolicies db with users := db.users.erase fun id _ => ids.contains id }

abbrev AdminOutcome := Outcome AuthDb AdminTxn Unit

namespace AdminTxn

def becomes (t : AdminTxn) (stage : AdminStage) : AdminOutcome := .continues { t with stage := stage }

def commitOf (db : AuthResult AuthDb) : AdminOutcome := Outcome.orEnd (fun db => .commits db none) db

def locks (t : AdminTxn) : List Unit :=
  match t.stage with
  | .planned plan | .current plan | .holders plan | .rows plan _ => plan.locks
  | .opened | .targets | .guards .. | .deleting .. | .deletes _ => []

/-- The row of the protected role is locked by other requests. -/
def updatesProtected (db : AuthDb) (roleId : ℕ) : Bool := (db.roles.get? roleId).any fun role => isProtectedRole role.code

def next (db : AuthDb) (free : Unit → Bool) (t : AdminTxn) : AdminOutcome :=
  match t.stage with
  | .opened => .continues { t with own := db.users.get? t.call.context.userId, stage := .targets }
  | .targets =>
    match t.call.request with
    | .user userId request =>
      match t.rowOf db userId with
      | some loaded => t.becomes (.guards userId request loaded)
      | none => .ends
    | .deleteUsers ids => t.becomes (.deleting ids (ids.dedup.filterMap fun id => (t.rowOf db id).map fun user => (id, user)))
    | .updateRole roleId data =>
      if updatesProtected db roleId then Outcome.whenFree free () (commitOf (updateRole db t.call.context roleId data))
      else commitOf (updateRole db t.call.context roleId data)
    | .deleteRoles ids => commitOf (deleteRoles db ids)
  | .guards userId request loaded =>
    Outcome.orEnd (fun plan => t.becomes (.planned plan)) (planOf db t.call.context userId loaded request)
  | .planned plan =>
    if plan.roleCheck || plan.statusCheck then
      if superAdminRole ∈ plan.newCodes then t.becomes (.planned plan.passed)
      else Outcome.whenFree free () (t.becomes (.current { plan with locked := true }))
    else .commits (plan.write db) none
  | .current plan => if superAdminRole ∈ plan.rolesNow db then t.becomes (.holders plan) else t.becomes (.planned plan.passed)
  | .holders plan => t.becomes (.rows plan ((usersWithRole db superAdminRole).filter fun id => id ≠ plan.userId))
  | .rows plan ids =>
    if ids.any fun id => (t.rowOf db id).any fun user => isActive user.status then t.becomes (.planned plan.passed) else .ends
  | .deleting ids users => Outcome.orEnd (fun _ => t.becomes (.deletes users)) (t.checkDeletion db ids users)
  | .deletes users =>
    let db' := deleteUserRows db users
    -- the last user account stays
    if db'.users.rows = [] then .ends else .commits db' none

end AdminTxn

def administering : Protocol AuthDb AdminCall AdminTxn Unit Unit where
  start call := ⟨call, none, .opened⟩
  locks := AdminTxn.locks
  next := AdminTxn.next

/-! ## What is promised -/

def ActiveSuperAdmin (db : AuthDb) (id : ℕ) : Prop :=
  superAdminRole ∈ userRoleCodes db id ∧ (db.users.get? id).any (fun user => isActive user.status) = true

instance (db : AuthDb) (id : ℕ) : Decidable (ActiveSuperAdmin db id) := inferInstanceAs (Decidable (_ ∧ _))

structure SuperAdminRemains (db : AuthDb) : Prop where
  user : ∃ id, ActiveSuperAdmin db id
  role : roleIsActive db superAdminRole = true
  grant : (.role superAdminRole, .wildcard) ∈ db.policies

/-- What goes well: a request that counts its own acting user counts one that is still active, and no user is deleted who
is an active super administrator by then. -/
def CountsWhatIs (db : AuthDb) : AdminTxn → Prop
  | ⟨call, own, .rows _ ids⟩ => call.keepsOwn = true → call.context.userId ∈ ids →
      own.any (fun user => isActive user.status) = true →
      (db.users.get? call.context.userId).any (fun user => isActive user.status) = true
  | ⟨_, _, .deletes users⟩ => ∀ row ∈ users, ¬ActiveSuperAdmin db row.1
  | _ => True

instance (db : AuthDb) : (t : AdminTxn) → Decidable (CountsWhatIs db t)
  | ⟨_, _, .rows ..⟩ => inferInstanceAs (Decidable (_ → _ → _ → _))
  | ⟨_, _, .deletes _⟩ => inferInstanceAs (Decidable (∀ row ∈ _, _))
  | ⟨_, _, .opened⟩ | ⟨_, _, .targets⟩ | ⟨_, _, .guards ..⟩ | ⟨_, _, .planned _⟩ | ⟨_, _, .current _⟩ | ⟨_, _, .holders _⟩
  | ⟨_, _, .deleting ..⟩ => .isTrue trivial

end LcsSystem
