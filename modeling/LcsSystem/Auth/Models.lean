import LcsSystem.Core.Permissions
import LcsSystem.Lib.Table

/-!
# Users, roles and the policy table

`src/backend/app/modules/auth/models.py` and `src/backend/app/core/authorization/service.py`. The rows of
`casbin_rule` are the grants (`p`) and the role assignments (`g`); a code is kept as it was joined. The policy copy that
a decision reads is the committed table.

Left out are times, locale and time zone, the flag of system roles, and the order in which codes are listed.
-/

namespace LcsSystem
open Relational Checks

inductive AuthError
  | accessDenied (message : String)
  | authRequired (message code : String)
  | other (e : Error)
  deriving DecidableEq, Repr

abbrev AuthResult := Except AuthError

def AuthError.notFound (message : String) : AuthError := .other (.notFound message)

def AuthError.invalid (message : String) (fieldErrors : List (String × String)) : AuthError :=
  .other (.invalid message fieldErrors)

def AuthError.conflict (code message : String) (fieldErrors : List (String × String)) : AuthError :=
  .other (.conflict code message fieldErrors)

structure User where
  userCode : String
  username : String
  email : String
  displayName : String
  status : String
  /-- `system_identity` is `DEFAULT_SYSTEM_ADMIN`. -/
  isProtectedSystemAdmin : Bool
  deriving DecidableEq

structure Role where
  code : String
  name : String
  description : Option String
  status : String
  deriving DecidableEq

inductive Subject
  | user (id : ℕ)
  | role (code : String)
  deriving DecidableEq

structure AuthDb where
  users : Table User
  roles : Table Role
  policies : Finset (Subject × PermissionCode)
  assignments : List (ℕ × String)

def superAdminRole : String := "SUPER_ADMIN"

/-- `str(status or "").upper() == "ACTIVE"`. -/
def isActive (status : String) : Bool := upper status == "ACTIVE"

/-! ## Policy reads -/

def userRoleCodes (db : AuthDb) (userId : ℕ) : List String :=
  (db.assignments.filter fun row => row.1 == userId).map Prod.snd

def usersWithRole (db : AuthDb) (roleCode : String) : List ℕ :=
  (db.assignments.filter fun row => row.2 == roleCode).map Prod.fst

def rolePermissionCodes (db : AuthDb) (roleCode : String) : Finset PermissionCode :=
  (db.policies.filter fun row => row.1 = .role roleCode).image Prod.snd

/-- A role of that code whose grants `_load_rows` loads. -/
def roleIsActive (db : AuthDb) (roleCode : String) : Bool :=
  db.roles.values.any fun role => role.code == roleCode && isActive role.status

/-- The subjects that a user acts for: itself and its active roles. -/
def ActsFor (db : AuthDb) (userId : ℕ) : Subject → Prop
  | .user id => id = userId
  | .role code => code ∈ userRoleCodes db userId ∧ roleIsActive db code = true

instance (db : AuthDb) (userId : ℕ) : (subject : Subject) → Decidable (ActsFor db userId subject)
  | .user _ => inferInstanceAs (Decidable (_ = _))
  | .role _ => inferInstanceAs (Decidable (_ ∧ _))

/-- `can`. -/
def can (db : AuthDb) (userId : ℕ) (code : PermissionCode) : Bool :=
  decide (∃ row ∈ db.policies, ActsFor db userId row.1 ∧ (row.2 = .wildcard ∨ row.2 = code))

/-! ## Policy writes -/

/-- The stripped texts, without the blank ones. -/
def strippedCodes (codes : List String) : List String := ((codes.map strip).filter fun code => code ≠ "").dedup

def setUserRoles (db : AuthDb) (userId : ℕ) (codes : List String) : AuthDb :=
  { db with
    assignments := (db.assignments.filter fun row => row.1 != userId) ++ (strippedCodes codes).map (userId, ·) }

def deleteUserPolicies (db : AuthDb) (userId : ℕ) : AuthDb :=
  { db with
    policies := db.policies.filter fun row => row.1 ≠ .user userId
    assignments := db.assignments.filter fun row => row.1 != userId }

def setRolePermissions (db : AuthDb) (roleCode : String) (codes : Finset PermissionCode) : AuthDb :=
  { db with
    policies := (db.policies.filter fun row => row.1 ≠ .role roleCode) ∪ codes.image (.role roleCode, ·) }

def deleteRolePolicies (db : AuthDb) (roleCode : String) : AuthDb :=
  { db with
    policies := db.policies.filter fun row => row.1 ≠ .role roleCode
    assignments := db.assignments.filter fun row => row.2 != roleCode }

section
variable (db : AuthDb) (userId id : ℕ) (roleCode code : String) (codes : List String)

@[simp] theorem setUserRoles_users : (setUserRoles db userId codes).users = db.users := rfl
@[simp] theorem setUserRoles_roles : (setUserRoles db userId codes).roles = db.roles := rfl
@[simp] theorem setUserRoles_policies : (setUserRoles db userId codes).policies = db.policies := rfl
@[simp] theorem setRolePermissions_users (P : Finset PermissionCode) :
    (setRolePermissions db roleCode P).users = db.users := rfl
@[simp] theorem setRolePermissions_roles (P : Finset PermissionCode) :
    (setRolePermissions db roleCode P).roles = db.roles := rfl
@[simp] theorem setRolePermissions_assignments (P : Finset PermissionCode) :
    (setRolePermissions db roleCode P).assignments = db.assignments := rfl

theorem mem_userRoleCodes {db : AuthDb} {userId : ℕ} {code : String} :
    code ∈ userRoleCodes db userId ↔ (userId, code) ∈ db.assignments := by
  simp [userRoleCodes]

theorem mem_usersWithRole {db : AuthDb} {userId : ℕ} {code : String} :
    userId ∈ usersWithRole db code ↔ (userId, code) ∈ db.assignments := by
  simp [usersWithRole]

theorem mem_rolePermissionCodes {db : AuthDb} {roleCode : String} {c : PermissionCode} :
    c ∈ rolePermissionCodes db roleCode ↔ (Subject.role roleCode, c) ∈ db.policies := by
  simp [rolePermissionCodes]

theorem userRoleCodes_setUserRoles :
    userRoleCodes (setUserRoles db userId codes) id =
      if id = userId then strippedCodes codes else userRoleCodes db id := by
  simp only [userRoleCodes, setUserRoles, List.filter_append, List.map_append, List.filter_filter, List.filter_map]
  split
  · next h =>
    subst h
    have hold : (db.assignments.filter fun row => row.1 == id && row.1 != id) = [] := by
      simp [List.filter_eq_nil_iff]
    simp [hold, Function.comp_def]
  · next h =>
    have hnew : ((fun row : ℕ × String => row.1 == id) ∘ fun code => (userId, code)) = fun _ => false := by
      funext code
      simpa using Ne.symm h
    have hold : (fun row : ℕ × String => row.1 == id && row.1 != userId) = fun row => row.1 == id := by
      funext row
      by_cases hrow : row.1 = id
      · simp [hrow, h]
      · simp [hrow]
    simp [hnew, hold]

theorem rolePermissionCodes_setRolePermissions (P : Finset PermissionCode) :
    rolePermissionCodes (setRolePermissions db roleCode P) code =
      if code = roleCode then P else rolePermissionCodes db code := by
  ext c
  simp only [mem_rolePermissionCodes, setRolePermissions, Finset.mem_union, Finset.mem_filter, Finset.mem_image]
  split
  · next h => simp [h]
  · next h => simp [h, Ne.symm h, mem_rolePermissionCodes]

theorem mem_strippedCodes {codes : List String} {code : String} :
    code ∈ strippedCodes codes ↔ code ≠ "" ∧ ∃ c ∈ codes, strip c = code := by
  simp only [strippedCodes, List.mem_dedup, List.mem_filter, List.mem_map, decide_eq_true_eq]
  exact and_comm

end
end LcsSystem
