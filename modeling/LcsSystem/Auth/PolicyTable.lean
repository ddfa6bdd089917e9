import LcsSystem.Core.Permissions
import LcsSystem.Lib.Transition

/-!
# The policy table and its compiled copy

`src/backend/app/core/authorization/service.py:66-156,219-315,374-421` with the rows of `casbin_rule` as they are stored:
a code is split at its last dot into two columns and joined again, a load reads the rows and the role statuses into an
enforcer, and `model.conf` decides. The matcher of `model.conf` is evaluated as it is written, over role links of at
most ten steps.

Rows are in insertion order; their ids are left out. Listings are sorted, as the source does. The index that allows a
user one role is left out: a table that breaks it is reachable here.
-/

namespace LcsSystem
open Transition

structure CasbinRule where
  ptype : String
  v0 : String
  v1 : String
  v2 : String
  v3 : String
  v4 : String
  v5 : String
  deriving DecidableEq

def CasbinRule.values (rule : CasbinRule) : List String := [rule.v0, rule.v1, rule.v2, rule.v3, rule.v4, rule.v5]

/-- A code that may be stored: one of the catalog, or the wildcard. -/
abbrev KnownCode := { code : PermissionCode // code.inCatalog = true ∨ code = .wildcard }

/-! ## Subjects and codes -/

def userSubject (userId : ℕ) : String := "user:" ++ toString userId
def roleSubject (roleCode : String) : String := "role:" ++ roleCode

/-- `split_code`. -/
def splitCode (code : String) : String × String :=
  if code = "*" then ("*", "*")
  else match code.toList.reverse.dropWhile (· != '.') with
    | [] => (code, "")
    | _ :: obj => (String.ofList obj.reverse, String.ofList (code.toList.reverse.takeWhile (· != '.')).reverse)

/-- `join_code`. -/
def joinCode (obj act : String) : String :=
  if obj = "*" ∧ (act = "" ∨ act = "*") then "*" else obj ++ "." ++ act

/-- `_role_code_of`. -/
def roleCodeOf (subject : String) : Option String :=
  if "role:".toList <+: subject.toList then some (String.ofList (subject.toList.drop 5)) else none

/-! ## Writes -/

abbrev PolicyTable := List CasbinRule

def grantRule (roleCode : String) (code : String) : CasbinRule :=
  ⟨"p", roleSubject roleCode, (splitCode code).1, (splitCode code).2, "", "", ""⟩

def assignRule (userId : ℕ) (roleCode : String) : CasbinRule :=
  ⟨"g", userSubject userId, roleSubject roleCode, "", "", "", ""⟩

/-- The stripped texts that are not blank, once each. -/
def distinctTexts (texts : List String) : List String := ((texts.map strip).filter fun text => text ≠ "").dedup

inductive PolicyWrite
  | setUserRoles (userId : ℕ) (roleCodes : List String)
  | setRolePermissions (roleCode : String) (codes : List KnownCode)
  | deleteUserPolicies (userId : ℕ)
  | deleteRolePolicies (roleCode : String)

def PolicyWrite.apply (table : PolicyTable) : PolicyWrite → PolicyTable
  | .setUserRoles userId roleCodes =>
    (table.filter fun rule => ¬(rule.ptype = "g" ∧ rule.v0 = userSubject userId)) ++
      (distinctTexts roleCodes).map (assignRule userId)
  | .setRolePermissions roleCode codes =>
    (table.filter fun rule => ¬(rule.ptype = "p" ∧ rule.v0 = roleSubject roleCode)) ++
      (distinctTexts (codes.map fun code => code.1.text)).map (grantRule roleCode)
  | .deleteUserPolicies userId =>
    table.filter fun rule => ¬((rule.ptype = "p" ∨ rule.ptype = "g") ∧ rule.v0 = userSubject userId)
  | .deleteRolePolicies roleCode =>
    (table.filter fun rule => ¬(rule.ptype = "p" ∧ rule.v0 = roleSubject roleCode)).filter fun rule =>
      ¬(rule.ptype = "g" ∧ (rule.v0 = roleSubject roleCode ∨ rule.v1 = roleSubject roleCode))

/-! ## Listings -/

def sortedTexts (texts : List String) : List String := texts.mergeSort fun a b => decide (a ≤ b)

namespace PolicyTable

/-- `user_role_codes`. -/
def userRoleCodes (table : PolicyTable) (userId : ℕ) : List String :=
  sortedTexts ((table.filter fun rule => rule.ptype = "g" ∧ rule.v0 = userSubject userId ∧
    "role:".toList <+: rule.v1.toList).map fun rule =>
      match roleCodeOf rule.v1 with
      | none | some "" => rule.v1
      | some code => code)

/-- `role_permission_codes`. -/
def rolePermissionCodes (table : PolicyTable) (roleCode : String) : List String :=
  sortedTexts ((table.filter fun rule => rule.ptype = "p" ∧ rule.v0 = roleSubject roleCode).map fun rule =>
    joinCode rule.v1 rule.v2)

end PolicyTable

/-! ## Loading -/

/-- The loaded policies and role links, as token lists. -/
structure Enforcer where
  policies : List (List String)
  links : List (List String)

/-- The values without the empty ones at the end. -/
def tokens (rule : CasbinRule) : List String := rule.values.rdropWhile fun value => value == ""

/-- The role of the subject is active, or the subject is no role. -/
def subjectActive (statuses : String → Option String) (subject : String) : Bool :=
  match roleCodeOf subject with
  | none => true
  | some code => (statuses code).any fun status => upper status == "ACTIVE"

/-- A row of `_load_rows`, unless it is dropped. -/
def loadRow (statuses : String → Option String) (rule : CasbinRule) : Option (String × List String) :=
  let values := tokens rule
  if rule.ptype = "p" then
    let values := if values.length = 2 ∧ values[1]? = some "*" then values ++ ["*"] else values
    if values.length = 3 ∧ (values.head?.any (subjectActive statuses)) then some ("p", values) else none
  else if rule.ptype = "g" then
    if values.length = 2 ∧ values.all (subjectActive statuses) ∧ ¬"role:".toList <+: (values.headD "").toList then
      some ("g", values)
    else none
  else none

/-- `_build` over `_load_rows`. -/
def loadEnforcer (table : PolicyTable) (statuses : String → Option String) : Enforcer :=
  let rows := table.filterMap (loadRow statuses)
  ⟨(rows.filter fun row => row.1 = "p").map Prod.snd, (rows.filter fun row => row.1 = "g").map Prod.snd⟩

/-! ## Decisions -/

namespace Enforcer

/-- `g(a, b)`: the same name, or linked in at most `n` steps. -/
def linked (e : Enforcer) : ℕ → String → String → Bool
  | 0, a, b => a == b
  | n + 1, a, b => a == b || e.links.any fun link => link.head? == some a && e.linked n ((link[1]?).getD "") b

/-- The matcher of `model.conf` on one policy. -/
def matchesPolicy (e : Enforcer) (sub obj act : String) : List String → Bool
  | [p0, p1, p2] => e.linked 10 sub p0 && (p1 == "*" || obj == p1) && (p2 == "*" || act == p2)
  | _ => false

def enforce (e : Enforcer) (sub obj act : String) : Bool := e.policies.any (e.matchesPolicy sub obj act)

/-- `can`, on a loaded copy. -/
def can (e : Enforcer) (userId : ℕ) (code : String) : Bool :=
  e.enforce (userSubject userId) (splitCode code).1 (splitCode code).2

/-- `effective_codes`: the policies of the user and of the roles that it is linked to. -/
def effectiveCodes (e : Enforcer) (userId : ℕ) : List String :=
  e.policies.filterMap fun policy =>
    match policy with
    | [p0, p1, p2] => if e.linked 10 (userSubject userId) p0 then some (joinCode p1 p2) else none
    | _ => none

end Enforcer

end LcsSystem
