import LcsSystem.Core.RoleSelection
import LcsSystem.Auth.Users
import LcsSystem.Lib.Transition

/-!
# Delegation of rights

What the administration of roles and users can hand on: a run of calls by any users, where the guard of a call looks at
the closure of the submitted codes and the policy table gets the closure of what the role then has.
-/

namespace LcsSystem
open Relational Checks Grants Transition

inductive RoleCall
  | createRole (data : RoleCreate)
  | updateRole (roleId : ℕ) (data : RoleUpdate)
  | replaceRolePermissions (roleId : ℕ) (codes : Finset PermissionCode)
  | grantRolePermissions (roleId : ℕ) (codes : Finset PermissionCode)
  | revokeRolePermissions (roleId : ℕ) (codes : Finset PermissionCode)
  | duplicateRole (roleId : ℕ) (data : RoleDuplicate)
  | deleteRoles (ids : List ℕ)
  | createUser (data : UserCreate)
  | updateUser (userId : ℕ) (data : UserUpdate)
  | assignRole (userId : ℕ) (data : RoleAssignmentCreate)
  | removeRole (userId : ℕ) (roleCode : String)

def RoleCall.perform (policy : PasswordPolicy) (db : AuthDb) (context : Context) : RoleCall → AuthResult AuthDb
  | .createRole data => LcsSystem.createRole db context data
  | .updateRole roleId data => LcsSystem.updateRole db context roleId data
  | .replaceRolePermissions roleId codes => LcsSystem.replaceRolePermissions db context roleId codes
  | .grantRolePermissions roleId codes => LcsSystem.grantRolePermissions db context roleId codes
  | .revokeRolePermissions roleId codes => LcsSystem.revokeRolePermissions db context roleId codes
  | .duplicateRole roleId data => LcsSystem.duplicateRole db context roleId data
  | .deleteRoles ids => LcsSystem.deleteRoles db ids
  | .createUser data => LcsSystem.createUser policy db context data
  | .updateUser userId data => LcsSystem.updateUser db context userId data
  | .assignRole userId data => LcsSystem.assignRole db context userId data
  | .removeRole userId roleCode => LcsSystem.removeRole db context userId roleCode

/-- A call of a user, on the rights that it has then. -/
def callStep (policy : PasswordPolicy) (db : AuthDb) (call : ℕ × RoleCall) : AuthDb :=
  orKeep db (call.2.perform policy db (contextOf db call.1))

/-! ## Role codes -/

theorem isSpace_of_isAlphanum {c : Char} (h : c.isAlphanum = true) : isSpace c = false := by
  simp only [Char.isAlphanum, Char.isAlpha, Bool.or_eq_true] at h
  rcases h with (hu | hl) | hd
  · exact isSpace_of_isUpper hu
  · exact isSpace_of_isLower hl
  · exact isSpace_of_isDigit hd

theorem isSpace_underscored : ∀ (l : List Char), ∀ c ∈ underscored l, isSpace c = false
  | [], c, hc => by cases hc
  | a :: l, c, hc => by
    have ih := isSpace_underscored l
    unfold underscored at hc
    split at hc
    · next ha =>
      rcases List.mem_cons.1 hc with rfl | hc
      · exact isSpace_of_isAlphanum ha
      · exact ih c hc
    · split at hc
      · next rest heq =>
        rw [heq] at ih
        exact ih c hc
      · rcases List.mem_cons.1 hc with rfl | hc
        · rfl
        · exact ih c hc

theorem strip_deriveRoleCode (name : String) (existing : List String) :
    strip (deriveRoleCode name existing) = deriveRoleCode name existing := by
  unfold deriveRoleCode
  extract_lets text base suffixed
  have htext : ∀ c ∈ text, isSpace c = false := fun c hc =>
    isSpace_underscored _ c (List.dropWhile_sublist _ |>.mem (List.rdropWhile_prefix _ _ |>.mem hc))
  have hbase : ∀ c ∈ base, isSpace c = false := by
    intro c hc
    simp only [base] at hc
    split at hc
    · have hc : c = 'R' ∨ c = 'O' ∨ c = 'L' ∨ c = 'E' := by simpa using hc
      rcases hc with rfl | rfl | rfl | rfl <;> rfl
    · obtain ⟨d, hd, rfl⟩ := List.mem_map.1 (List.mem_of_mem_take hc)
      rw [isSpace_toUpper]
      exact htext d hd
  have hsuffixed : ∀ i, strip (suffixed i) = suffixed i := by
    intro i
    refine strip_of_forall fun c hc => ?_
    rcases List.mem_append.1 hc with hc | hc
    · exact hbase c (List.mem_of_mem_take hc)
    · rw [String.toList_append, List.mem_append] at hc
      rcases hc with hc | hc
      · obtain rfl : c = '_' := by simpa using hc
        rfl
      · rw [show (toString (i + 2)).toList = Nat.toDigits 10 (i + 2) from Nat.toList_repr] at hc
        exact isSpace_of_isDigit (Nat.isDigit_of_mem_toDigits (by decide) (by decide) hc)
  split
  · exact strip_of_forall hbase
  · cases hfind : ((List.range (existing.length + 1)).map suffixed).find? fun code => code ∉ existing with
    | none => exact strip_of_forall hbase
    | some code =>
      obtain ⟨i, -, rfl⟩ := List.mem_map.1 (List.mem_of_find?_eq_some hfind)
      exact hsuffixed i

/-! ## What the tables hold -/

/-- What every write checks or strips: the codes of the policy table are known, role codes have no blanks around. -/
structure WellKept (db : AuthDb) : Prop where
  known : ∀ row ∈ db.policies, row.2.isKnown = true
  roles : ∀ role ∈ db.roles.values, strip role.code = role.code
  assigned : ∀ row ∈ db.assignments, strip row.2 = row.2

theorem inCatalog_granted : ∀ p ∈ grantKeys, p.inCatalog = true ∧ ∀ c ∈ grantsOf p, c.inCatalog = true := by
  decide +kernel

theorem isKnown_of_inCatalog {c : PermissionCode} (h : c.inCatalog = true) : c.isKnown = true := by
  simp [PermissionCode.isKnown, h]

section
variable {S : Finset PermissionCode} {x : PermissionCode}

theorem resolve_wildcard (h : PermissionCode.wildcard ∈ S) : resolveRoleCodes S = {PermissionCode.wildcard} := by
  have hmem : PermissionCode.wildcard ∈ (S.filter fun code => !code.isBlank).image PermissionCode.stripped :=
    Finset.mem_image.2 ⟨.wildcard, Finset.mem_filter.2 ⟨h, rfl⟩, rfl⟩
  simp only [resolveRoleCodes, hmem, if_true]

theorem storedCodes_eq : storedCodes S = resolveRoleCodes S := by
  unfold storedCodes
  split
  · next h => exact (resolve_wildcard h).symm
  · rfl

/-- Known codes without the wildcard are codes of the catalog. -/
theorem allCodes_of_known (hknown : ∀ c ∈ S, c.isKnown = true) (h : PermissionCode.wildcard ∉ S) : AllCodes S := by
  intro c hc
  have hc' := hknown c hc
  simp only [PermissionCode.isKnown, Bool.or_eq_true, beq_iff_eq] at hc'
  rcases hc' with hcat | rfl
  · exact isCode_of_inCatalog hcat
  · exact absurd hc h

/-- What a selection of codes resolves to: chosen, declared by the choice, or a page that it implies. -/
theorem mem_resolve_iff (h : AllCodes S) : x ∈ resolveRoleCodes S ↔
    x ∈ chosen S ∨ permissionGraph.Declares (chosen S) x ∨ x ∈ permissionGraph.implied (covered (chosen S)) := by
  rw [resolveRoleCodes_union h, Finset.mem_union, covered, granted_eq h.chosen, Graph.mem_reach, or_assoc]

theorem subset_resolve (h : AllCodes S) : S ⊆ resolveRoleCodes S := by
  intro x hx
  rw [mem_resolve_iff h]
  by_cases hchosen : x ∈ chosen S
  · exact .inl hchosen
  · have hdropped : ¬(x.isPage = true ∨ ∀ q ∈ S, q.isPage = true → x ∉ grantsOf q) :=
      fun hcase => hchosen (mem_chosen.2 ⟨hx, hcase⟩)
    push Not at hdropped
    obtain ⟨-, q, hq, hpage, hxq⟩ := hdropped
    exact .inr (.inl ⟨q, mem_chosen.2 ⟨hq, .inl hpage⟩, .inl hxq⟩)

theorem known_of_declares (h : permissionGraph.Declares S x) : x.isKnown = true := by
  obtain ⟨a, -, hx | ⟨b, -, -, hx⟩⟩ := h
  · exact isKnown_of_inCatalog ((inCatalog_granted a (mem_grantKeys hx)).2 x hx)
  · exact isKnown_of_inCatalog ((inCatalog_granted b (mem_grantKeys hx)).2 x hx)

theorem known_of_implied {K : Finset PermissionCode} (h : x ∈ permissionGraph.implied K) : x.isKnown = true := by
  obtain ⟨c, -, -, hfirst⟩ := Graph.mem_implied.1 h
  have hc := (mem_pagesGranting x c).1 (Graph.firstPage_eq_some.1 hfirst).1
  exact isKnown_of_inCatalog (inCatalog_granted x (mem_grantKeys hc)).1

theorem known_resolve (hknown : ∀ c ∈ S, c.isKnown = true) : ∀ c ∈ resolveRoleCodes S, c.isKnown = true := by
  intro c hc
  by_cases hstar : PermissionCode.wildcard ∈ S
  · rw [resolve_wildcard hstar, Finset.mem_singleton] at hc
    rw [hc]
    rfl
  · rcases (mem_resolve_iff (allCodes_of_known hknown hstar)).1 hc with h | h | h
    · exact hknown c (chosen_subset h)
    · exact known_of_declares h
    · exact known_of_implied h

end

/-! ## Who hands on what -/

/-- A call of the actor stored nothing for a role, and gave no user a role with anything, that the actor does not
hold. -/
def NoDelegation (db db' : AuthDb) (actor : ℕ) : Prop :=
  (∀ roleCode, ∀ c ∈ rolePermissionCodes db' roleCode, c ∈ rolePermissionCodes db roleCode ∨ can db actor c = true) ∧
  ∀ userId, ∀ roleCode ∈ userRoleCodes db' userId,
    roleCode ∈ userRoleCodes db userId ∨ ∀ c ∈ rolePermissionCodes db' roleCode, can db actor c = true

/-- The page is complete: all codes that it grants are held, and for one of them no page before it is complete. -/
def Completes (codes : Finset PermissionCode) (page : PermissionCode) : Prop :=
  (∀ x ∈ grantsOf page, Holds codes x) ∧
    ∃ c ∈ grantsOf page, c.isPage = false ∧ ∀ q ∈ permissionGraph.earlier c page, ∃ x ∈ grantsOf q, ¬Holds codes x

instance (codes : Finset PermissionCode) (page : PermissionCode) : Decidable (Completes codes page) :=
  inferInstanceAs (Decidable (_ ∧ _))

/-- Of the codes that `own` declares and the pages that `selected` completes, none is new and not held. -/
structure Within (selected own : Finset PermissionCode) (ok : PermissionCode → Bool) : Prop where
  declared : ∀ a ∈ chosen own, ∀ x ∈ declaredBy a, ok x = true
  completed : ∀ p ∈ grantKeys, Completes (chosen selected) p → ok p = true

instance (selected own : Finset PermissionCode) (ok : PermissionCode → Bool) : Decidable (Within selected own ok) :=
  decidable_of_iff ((∀ a ∈ chosen own, ∀ x ∈ declaredBy a, ok x = true) ∧
    ∀ p ∈ grantKeys, Completes (chosen selected) p → ok p = true) ⟨fun h => ⟨h.1, h.2⟩, fun h => ⟨h.1, h.2⟩⟩

/-- The code is stored for the role, or the actor holds it. -/
def storedOrHeld (db : AuthDb) (actor : ℕ) (roleCode : String) (c : PermissionCode) : Bool :=
  decide (c ∈ rolePermissionCodes db roleCode) || can db actor c

/-- What a grant adds to the role, and what is left of it after a revocation, completes no page that is new for the role
and not held by the actor. -/
def CallAdmits (db : AuthDb) (call : ℕ × RoleCall) : Prop :=
  match call.2 with
  | .grantRolePermissions roleId codes => ∀ role ∈ db.roles.get? roleId,
    let stored := rolePermissionCodes db role.code
    .wildcard ∈ stored ∨ Within (stored ∪ codes) stored (storedOrHeld db call.1 role.code)
  | .revokeRolePermissions roleId codes => ∀ role ∈ db.roles.get? roleId,
    let remaining := rolePermissionCodes db role.code \ revokedCodes codes
    .wildcard ∈ remaining ∨ Within remaining remaining (storedOrHeld db call.1 role.code)
  | _ => True

instance (db : AuthDb) : (call : ℕ × RoleCall) → Decidable (CallAdmits db call)
  | (_, .grantRolePermissions _ _) => inferInstanceAs (Decidable (∀ role ∈ _, _ ∨ _))
  | (_, .revokeRolePermissions _ _) => inferInstanceAs (Decidable (∀ role ∈ _, _ ∨ _))
  | (_, .createRole _) | (_, .updateRole _ _) | (_, .replaceRolePermissions _ _) | (_, .duplicateRole _ _)
  | (_, .deleteRoles _) | (_, .createUser _) | (_, .updateUser _ _) | (_, .assignRole _ _) | (_, .removeRole _ _) =>
    .isTrue trivial

section
variable {db db' : AuthDb} {actor : ℕ} {S : Finset PermissionCode} {roleCode : String}

theorem completes_of_implied {K : Finset PermissionCode} {p : PermissionCode}
    (h : p ∈ permissionGraph.implied (covered K)) : p ∈ grantKeys ∧ Completes K p := by
  obtain ⟨c, -, hc, hfirst⟩ := Graph.mem_implied.1 h
  obtain ⟨hpages, hcovers, hearlier⟩ := Graph.firstPage_eq_some.1 hfirst
  have hcp := (mem_pagesGranting p c).1 hpages
  refine ⟨mem_grantKeys hcp, covers_covered.1 hcovers, c, hcp, hc, fun q hq => ?_⟩
  have := hearlier q hq
  rw [covers_covered] at this
  push Not at this
  exact this

/-- A stored set that stays within what the role has and the actor holds. -/
theorem resolve_within {selected own : Finset PermissionCode} {ok : PermissionCode → Bool} (h : AllCodes selected)
    (hw : Within selected own ok) (hown : own ⊆ selected) (hself : ∀ c ∈ selected, ok c = true)
    (hrest : ∀ a ∈ chosen selected, a ∉ own → ∀ x ∈ declaredBy a, ok x = true) :
    ∀ c ∈ resolveRoleCodes selected, ok c = true := by
  intro c hc
  rcases (mem_resolve_iff h).1 hc with hc | ⟨a, ha, hx⟩ | hc
  · exact hself c (chosen_subset hc)
  · have hdeclared : c ∈ declaredBy a := mem_declaredBy.2 hx
    by_cases hmem : a ∈ own
    · obtain ⟨-, hcase⟩ := mem_chosen.1 ha
      refine hw.declared a (mem_chosen.2 ⟨hmem, ?_⟩) c hdeclared
      exact hcase.imp_right fun hnot q hq hpage => hnot q (hown hq) hpage
    · exact hrest a ha hmem c hdeclared
  · obtain ⟨hkey, hcomplete⟩ := completes_of_implied hc
    exact hw.completed c hkey hcomplete

theorem held_of_assert {context : Context} {u : PUnit} (h : assertCanGrantPermissions context S = .ok u)
    (hsuper : context.isPlatformAdmin = false) : ∀ c ∈ resolveRoleCodes S, context.hasPermission c = true := by
  simp only [assertCanGrantPermissions, check_eq_ok, hsuper, Bool.false_eq_true, false_or] at h
  intro c hc
  by_contra hnot
  have : c ∈ (resolveRoleCodes S).filter fun code => !context.hasPermission code :=
    Finset.mem_filter.2 ⟨hc, by simpa using hnot⟩
  rw [h] at this
  cases this

/-- A guard that passes: the submitted codes are codes, and held. -/
theorem held_of_known {u : PUnit} (hknown : ∀ c ∈ S, c.isKnown = true)
    (h : assertCanGrantPermissions (contextOf db actor) S = .ok u) (hsuper : can db actor .wildcard = false) :
    AllCodes S ∧ ∀ c ∈ resolveRoleCodes S, can db actor c = true := by
  have hheld := held_of_assert h hsuper
  refine ⟨allCodes_of_known hknown fun hstar => ?_, hheld⟩
  have := hheld .wildcard (by rw [resolve_wildcard hstar]; exact Finset.mem_singleton_self _)
  rw [show (contextOf db actor).hasPermission .wildcard = can db actor .wildcard from rfl, hsuper] at this
  cases this

theorem validate_eq_ok {u : PUnit} : validatePermissionCodes S = .ok u ↔ ∀ c ∈ S, c.isKnown = true := by
  simp only [validatePermissionCodes, check_eq_ok, Finset.filter_eq_empty_iff, Bool.not_eq_true', Bool.not_eq_false]

theorem sync_spec (h : syncRolePermissions db roleCode S = .ok db') :
    (∀ c ∈ S, c.isKnown = true) ∧ db' = setRolePermissions db roleCode (resolveRoleCodes S) := by
  simp only [syncRolePermissions, bind_eq_ok, check_eq_ok, pure_eq_ok, validate_eq_ok, storedCodes_eq] at h
  obtain ⟨-, hknown, -, -, rfl⟩ := h
  exact ⟨hknown, rfl⟩

/-! ## The writes -/

theorem WellKept.setRolePermissions (h : WellKept db) (hS : ∀ c ∈ S, c.isKnown = true) :
    WellKept (setRolePermissions db roleCode S) where
  known := by
    intro row hrow
    rcases Finset.mem_union.1 hrow with hrow | hrow
    · exact h.known row (Finset.mem_filter.1 hrow).1
    · obtain ⟨c, hc, rfl⟩ := Finset.mem_image.1 hrow
      exact hS c hc
  roles := h.roles
  assigned := h.assigned

theorem WellKept.setUserRoles (h : WellKept db) (userId : ℕ) (codes : List String) :
    WellKept (setUserRoles db userId codes) where
  known := h.known
  roles := h.roles
  assigned := by
    intro row hrow
    rcases List.mem_append.1 hrow with hrow | hrow
    · exact h.assigned row (List.mem_filter.1 hrow).1
    · obtain ⟨code, hcode, rfl⟩ := List.mem_map.1 hrow
      obtain ⟨-, c, -, rfl⟩ := mem_strippedCodes.1 hcode
      exact strip_strip c

theorem WellKept.withUsers (h : WellKept db) (users : Table User) : WellKept { db with users := users } :=
  ⟨h.known, h.roles, h.assigned⟩

theorem NoDelegation.refl : NoDelegation db db actor :=
  ⟨fun _ _ hc => .inl hc, fun _ _ hr => .inl hr⟩

/-- Only the grants of one role are written. -/
theorem noDelegation_setRolePermissions {db₀ : AuthDb} (hpolicies : db₀.policies = db.policies)
    (hassigned : db₀.assignments = db.assignments)
    (h : ∀ c ∈ S, c ∈ rolePermissionCodes db roleCode ∨ can db actor c = true) :
    NoDelegation db (setRolePermissions db₀ roleCode S) actor := by
  constructor
  · intro code c hc
    rw [rolePermissionCodes_setRolePermissions] at hc
    split at hc
    · next heq => exact heq ▸ h c hc
    · exact .inl (by rwa [mem_rolePermissionCodes, ← hpolicies, ← mem_rolePermissionCodes])
  · intro userId code hcode
    refine .inl ?_
    rw [mem_userRoleCodes, setRolePermissions_assignments, hassigned] at hcode
    exact mem_userRoleCodes.2 hcode

/-- Only the roles of one user are written. -/
theorem noDelegation_setUserRoles {db₀ : AuthDb} {userId : ℕ} {codes : List String}
    (hpolicies : db₀.policies = db.policies) (hassigned : db₀.assignments = db.assignments)
    (h : ∀ code ∈ strippedCodes codes,
      code ∈ userRoleCodes db userId ∨ ∀ c ∈ rolePermissionCodes db code, can db actor c = true) :
    NoDelegation db (setUserRoles db₀ userId codes) actor := by
  have hsame : ∀ code, rolePermissionCodes (setUserRoles db₀ userId codes) code = rolePermissionCodes db code := by
    intro code
    ext c
    rw [mem_rolePermissionCodes, mem_rolePermissionCodes, setUserRoles_policies, hpolicies]
  constructor
  · intro code c hc
    exact .inl (hsame code ▸ hc)
  · intro id code hcode
    rw [userRoleCodes_setUserRoles] at hcode
    rw [hsame]
    split at hcode
    · next heq => exact heq ▸ h code hcode
    · exact .inl (by rwa [mem_userRoleCodes, ← hassigned, ← mem_userRoleCodes])

/-- The rows that are kept of the policy table grant nothing new. -/
theorem noDelegation_of_subset (hpolicies : db'.policies ⊆ db.policies) (hassigned : db'.assignments ⊆ db.assignments) :
    NoDelegation db db' actor :=
  ⟨fun _ _ hc => .inl (mem_rolePermissionCodes.2 (hpolicies (mem_rolePermissionCodes.1 hc))),
    fun _ _ hr => .inl (mem_userRoleCodes.2 (hassigned (mem_userRoleCodes.1 hr)))⟩

/-! ## Calls on roles -/

theorem createRole_spec {context : Context} {data : RoleCreate} (h : createRole db context data = .ok db') :
    (∀ c ∈ data.permissions, c.isKnown = true) ∧
      (∃ u : PUnit.{1}, assertCanGrantPermissions context data.permissions = .ok u) ∧
      ∃ role : Role, strip role.code = role.code ∧ db' = setRolePermissions { db with roles := db.roles.insert role }
        role.code (resolveRoleCodes data.permissions) := by
  simp only [createRole, bind_eq_ok, validate_eq_ok] at h
  obtain ⟨-, -, -, -, -, -, -, hknown, _, hheld, hsync⟩ := h
  obtain ⟨-, rfl⟩ := sync_spec hsync
  refine ⟨hknown, ⟨_, hheld⟩, _, ?_, rfl⟩
  rw [strip_upper]
  split
  · rw [strip_deriveRoleCode]
  · rw [strip_strip]

theorem WellKept.withRole (h : WellKept db) {role : Role} (hrole : strip role.code = role.code) :
    WellKept { db with roles := db.roles.insert role } where
  known := h.known
  roles := by
    intro other hother
    obtain ⟨id, hid⟩ := Table.mem_values.1 hother
    rw [Table.get?_insert] at hid
    split at hid
    · cases hid
      exact hrole
    · exact h.roles other (Table.mem_values.2 ⟨id, hid⟩)
  assigned := h.assigned

theorem WellKept.modifyRole (h : WellKept db) (roleId : ℕ) {f : Role → Role} (hf : ∀ role, (f role).code = role.code) :
    WellKept { db with roles := db.roles.modify roleId f } where
  known := h.known
  roles := by
    intro other hother
    obtain ⟨id, hid⟩ := Table.mem_values.1 hother
    rw [Table.get?_modify] at hid
    split at hid
    · obtain ⟨role, hrole, rfl⟩ := Option.map_eq_some_iff.1 hid
      rw [hf]
      exact h.roles role (Table.mem_values.2 ⟨_, hrole⟩)
    · exact h.roles other (Table.mem_values.2 ⟨id, hid⟩)
  assigned := h.assigned

/-- What a call has to show: the tables stay well kept, and nothing is handed on that the actor does not hold. -/
def Lawful (db db' : AuthDb) (actor : ℕ) (admits : Prop) : Prop :=
  WellKept db' ∧ (admits → can db actor .wildcard = false → NoDelegation db db' actor)

/-- The grants of a role are replaced by what the guard has checked. -/
theorem lawful_checked {db₀ : AuthDb} {u : PUnit} {admits : Prop} (hk : WellKept db₀)
    (hpolicies : db₀.policies = db.policies) (hassigned : db₀.assignments = db.assignments)
    (hknown : ∀ c ∈ S, c.isKnown = true) (h : assertCanGrantPermissions (contextOf db actor) S = .ok u) :
    Lawful db (setRolePermissions db₀ roleCode (resolveRoleCodes S)) actor admits := by
  refine ⟨hk.setRolePermissions (known_resolve hknown), fun _ hsuper => ?_⟩
  exact noDelegation_setRolePermissions hpolicies hassigned fun c hc => .inr ((held_of_known hknown h hsuper).2 c hc)

theorem lawful_createRole {data : RoleCreate} {admits : Prop} (hk : WellKept db)
    (h : createRole db (contextOf db actor) data = .ok db') : Lawful db db' actor admits := by
  obtain ⟨hknown, ⟨u, hheld⟩, role, hrole, rfl⟩ := createRole_spec h
  exact lawful_checked (hk.withRole hrole) rfl rfl hknown hheld

theorem lawful_duplicateRole {roleId : ℕ} {data : RoleDuplicate} {admits : Prop} (hk : WellKept db)
    (h : duplicateRole db (contextOf db actor) roleId data = .ok db') : Lawful db db' actor admits := by
  simp only [duplicateRole, bind_eq_ok] at h
  obtain ⟨source, -, -, -, hcreate⟩ := h
  exact lawful_createRole hk hcreate

theorem lockedRole_eq_ok {context : Context} {roleId : ℕ} {role : Role} (h : lockedRole db context roleId = .ok role) :
    db.roles.get? roleId = some role := by
  simp only [lockedRole, bind_eq_ok, require_eq_ok, pure_eq_ok] at h
  obtain ⟨_, hrole, -, -, rfl⟩ := h
  exact hrole

theorem lawful_updateRole {roleId : ℕ} {data : RoleUpdate} {admits : Prop} (hk : WellKept db)
    (h : updateRole db (contextOf db actor) roleId data = .ok db') : Lawful db db' actor admits := by
  simp only [updateRole, bind_eq_ok] at h
  obtain ⟨role, -, -, -, -, -, h⟩ := h
  have hrow := hk.modifyRole roleId (f := fun role => { role with
      name := data.name.getD role.name
      description := data.description.or role.description
      status := (data.status.map upper).getD role.status }) fun _ => rfl
  cases hp : data.permissions with
  | none =>
    rw [hp] at h
    simp only [pure_eq_ok] at h
    subst h
    exact ⟨hrow, fun _ _ => noDelegation_of_subset subset_rfl (List.Subset.refl _)⟩
  | some codes =>
    rw [hp] at h
    simp only [bind_eq_ok, validate_eq_ok] at h
    obtain ⟨-, hknown, _, hheld, hsync⟩ := h
    obtain ⟨-, rfl⟩ := sync_spec hsync
    exact lawful_checked hrow rfl rfl hknown hheld

theorem lawful_replace {roleId : ℕ} {admits : Prop} (hk : WellKept db)
    (h : replaceRolePermissions db (contextOf db actor) roleId S = .ok db') : Lawful db db' actor admits := by
  simp only [replaceRolePermissions, bind_eq_ok, validate_eq_ok] at h
  obtain ⟨role, -, -, hknown, _, hheld, hsync⟩ := h
  obtain ⟨-, rfl⟩ := sync_spec hsync
  exact lawful_checked hk rfl rfl hknown hheld

theorem lawful_grant {roleId : ℕ} (hk : WellKept db)
    (h : grantRolePermissions db (contextOf db actor) roleId S = .ok db') :
    Lawful db db' actor (CallAdmits db (actor, .grantRolePermissions roleId S)) := by
  simp only [grantRolePermissions, bind_eq_ok, validate_eq_ok] at h
  obtain ⟨role, hrole, -, hknown, _, hheld, hsync⟩ := h
  obtain ⟨hunion, rfl⟩ := sync_spec hsync
  refine ⟨hk.setRolePermissions (known_resolve hunion), fun hadmits hsuper => ?_⟩
  refine noDelegation_setRolePermissions rfl rfl fun c hc => ?_
  obtain ⟨hcodes, hgranted⟩ := held_of_known hknown hheld hsuper
  rcases hadmits role (lockedRole_eq_ok hrole) with hstar | hwithin
  · rw [resolve_wildcard (Finset.mem_union_left _ hstar), Finset.mem_singleton] at hc
    exact .inl (hc ▸ hstar)
  · by_cases hstar : PermissionCode.wildcard ∈ rolePermissionCodes db role.code
    · rw [resolve_wildcard (Finset.mem_union_left _ hstar), Finset.mem_singleton] at hc
      exact .inl (hc ▸ hstar)
    have hall : AllCodes (rolePermissionCodes db role.code ∪ S) := by
      refine allCodes_of_known hunion fun hmem => ?_
      rcases Finset.mem_union.1 hmem with hmem | hmem
      · exact hstar hmem
      · cases hcodes _ hmem
    have hok := resolve_within hall hwithin Finset.subset_union_left ?_ ?_ c hc
    · simpa [storedOrHeld] using hok
    · intro x hx
      rcases Finset.mem_union.1 hx with hx | hx
      · simp [storedOrHeld, hx]
      · simp [storedOrHeld, hgranted x (subset_resolve hcodes hx)]
    · -- a granted code that the union chooses is chosen among the granted codes, and the guard has seen what it declares
      intro a ha hnot x hx
      obtain ⟨hmem, hcase⟩ := mem_chosen.1 ha
      have haS : a ∈ S := (Finset.mem_union.1 hmem).resolve_left hnot
      have hchosen : a ∈ chosen S :=
        mem_chosen.2 ⟨haS, hcase.imp_right fun hfree q hq => hfree q (Finset.mem_union_right _ hq)⟩
      have hresolved := (mem_resolve_iff hcodes).2 (.inr (.inl ⟨a, hchosen, mem_declaredBy.1 hx⟩))
      simp [storedOrHeld, hgranted x hresolved]

theorem lawful_revoke {roleId : ℕ} (hk : WellKept db)
    (h : revokeRolePermissions db (contextOf db actor) roleId S = .ok db') :
    Lawful db db' actor (CallAdmits db (actor, .revokeRolePermissions roleId S)) := by
  simp only [revokeRolePermissions, bind_eq_ok] at h
  obtain ⟨role, hrole, -, -, hsync⟩ := h
  obtain ⟨hremaining, rfl⟩ := sync_spec hsync
  refine ⟨hk.setRolePermissions (known_resolve hremaining), fun hadmits _ => ?_⟩
  refine noDelegation_setRolePermissions rfl rfl fun c hc => ?_
  have hstored : ∀ x ∈ rolePermissionCodes db role.code \ revokedCodes S, x ∈ rolePermissionCodes db role.code :=
    fun x hx => (Finset.mem_sdiff.1 hx).1
  by_cases hstar : PermissionCode.wildcard ∈ rolePermissionCodes db role.code \ revokedCodes S
  · rw [resolve_wildcard hstar, Finset.mem_singleton] at hc
    exact .inl (hc ▸ hstored _ hstar)
  · have hwithin := (hadmits role (lockedRole_eq_ok hrole)).resolve_left hstar
    have hok := resolve_within (allCodes_of_known hremaining hstar) hwithin subset_rfl
      (fun x hx => by simp [storedOrHeld, hstored x hx]) (fun a ha hnot => absurd (chosen_subset ha) hnot) c hc
    simpa [storedOrHeld] using hok

theorem lawful_deleteRoles {ids : List ℕ} {admits : Prop} (hk : WellKept db) (h : deleteRoles db ids = .ok db') :
    Lawful db db' actor admits := by
  simp only [deleteRoles, bind_eq_ok, pure_eq_ok] at h
  obtain ⟨-, -, -, -, -, -, rfl⟩ := h
  have hfold : ∀ (roles : List Role) (d : AuthDb),
      (roles.foldl (fun d role => deleteRolePolicies d role.code) d).policies ⊆ d.policies ∧
      (roles.foldl (fun d role => deleteRolePolicies d role.code) d).assignments ⊆ d.assignments ∧
      (roles.foldl (fun d role => deleteRolePolicies d role.code) d).roles = d.roles := by
    intro roles
    induction roles with
    | nil => exact fun d => ⟨subset_rfl, List.Subset.refl _, rfl⟩
    | cons role roles ih =>
      intro d
      obtain ⟨hp, ha, hr⟩ := ih (deleteRolePolicies d role.code)
      exact ⟨hp.trans (Finset.filter_subset _ _), List.Subset.trans ha (List.filter_subset_self _), hr⟩
  obtain ⟨hp, ha, hr⟩ := hfold (ids.dedup.filterMap db.roles.get?) db
  refine ⟨⟨fun row hrow => hk.known row (hp hrow), fun role hrole => ?_, fun row hrow => hk.assigned row (ha hrow)⟩,
    fun _ _ => noDelegation_of_subset hp ha⟩
  obtain ⟨id, hid⟩ := Table.mem_values.1 hrole
  rw [Table.get?_erase, Option.filter_eq_some_iff] at hid
  exact hk.roles role (Table.mem_values.2 ⟨id, hr ▸ hid.1⟩)

/-! ## Calls on users -/

theorem checkRoles_held {codes : List String} {u : PUnit} (hk : WellKept db)
    (h : checkRoles db (contextOf db actor) codes = .ok u) (hsuper : can db actor .wildcard = false) :
    ∀ code ∈ codes, ∀ c ∈ rolePermissionCodes db code, can db actor c = true := by
  simp only [checkRoles, loadRoles, bind_eq_ok, check_eq_ok, pure_eq_ok, forM_eq_ok, List.filter_eq_nil_iff,
    List.mem_dedup] at h
  obtain ⟨-, -, roles, ⟨-, hunknown, -, -, rfl⟩, hassign⟩ := h
  intro code hcode c hc
  have hsome := hunknown code hcode
  simp only [Option.isNone_iff_eq_none, ← ne_eq, Option.ne_none_iff_exists'] at hsome
  obtain ⟨role, hrole⟩ := hsome
  have hguard := hassign role (List.mem_filterMap.2 ⟨code, List.mem_dedup.2 hcode, hrole⟩)
  have hcodeEq : role.code = code := by simpa [roleByCode] using List.find?_some hrole
  rw [assertCanAssignRole, hcodeEq] at hguard
  have hknown : ∀ c ∈ rolePermissionCodes db code, c.isKnown = true :=
    fun c hc => hk.known _ (mem_rolePermissionCodes.1 hc)
  obtain ⟨hcodes, hheld⟩ := held_of_known hknown hguard hsuper
  exact hheld c (subset_resolve hcodes hc)

theorem lawful_setUserRoles {db₀ : AuthDb} {userId : ℕ} {codes : List String} {admits : Prop} (hk : WellKept db₀)
    (hpolicies : db₀.policies = db.policies) (hassigned : db₀.assignments = db.assignments)
    (h : can db actor .wildcard = false → ∀ code ∈ codes, strip code ∈ userRoleCodes db userId ∨
      ∀ c ∈ rolePermissionCodes db (strip code), can db actor c = true) :
    Lawful db (setUserRoles db₀ userId codes) actor admits := by
  refine ⟨hk.setUserRoles userId codes, fun _ hsuper => noDelegation_setUserRoles hpolicies hassigned ?_⟩
  intro code hcode
  obtain ⟨-, c, hc, rfl⟩ := mem_strippedCodes.1 hcode
  exact h hsuper c hc

theorem strip_of_requested {roleCode : Option String} {codes : List String} {code : String}
    (h : requestedRoleCodes roleCode = some codes) (hcode : code ∈ codes) : strip code = code := by
  simp only [requestedRoleCodes, Option.map_eq_some_iff] at h
  obtain ⟨text, -, rfl⟩ := h
  split at hcode
  · cases hcode
  · rw [List.mem_singleton.1 hcode, strip_strip]

theorem lawful_createUser {policy : PasswordPolicy} {data : UserCreate} {admits : Prop} (hk : WellKept db)
    (h : createUser policy db (contextOf db actor) data = .ok db') : Lawful db db' actor admits := by
  simp only [createUser, bind_eq_ok, check_eq_ok, pure_eq_ok] at h
  obtain ⟨-, -, -, -, _, hroles, -, -, rfl⟩ := h
  refine lawful_setUserRoles (hk.withUsers _) rfl rfl fun hsuper code hcode => ?_
  cases hrequested : requestedRoleCodes data.roleCode with
  | none =>
    rw [hrequested] at hcode
    cases hcode
  | some codes =>
    rw [hrequested, Option.getD_some] at hcode hroles
    rw [strip_of_requested hrequested hcode]
    exact .inr (checkRoles_held hk hroles hsuper code hcode)

theorem lawful_updateUser {userId : ℕ} {data : UserUpdate} {admits : Prop} (hk : WellKept db)
    (h : updateUser db (contextOf db actor) userId data = .ok db') : Lawful db db' actor admits := by
  simp only [updateUser, bind_eq_ok, pure_eq_ok] at h
  obtain ⟨user, -, -, -, -, -, db₁, hdb₁, -, -, rfl⟩ := h
  have hroles : Lawful db db₁ actor admits := by
    simp only [updateUserRoles] at hdb₁
    cases hrequested : requestedRoleCodes data.roleCode with
    | none =>
      rw [hrequested] at hdb₁
      cases hdb₁
      exact ⟨hk, fun _ _ => .refl⟩
    | some codes =>
      rw [hrequested] at hdb₁
      dsimp only at hdb₁
      split at hdb₁
      · simp only [checkRoleChange, bind_eq_ok, pure_eq_ok] at hdb₁
        obtain ⟨_, ⟨-, -, -, -, hcheck⟩, -, -, rfl⟩ := hdb₁
        refine lawful_setUserRoles hk rfl rfl fun hsuper code hcode => ?_
        rw [strip_of_requested hrequested hcode]
        exact .inr (checkRoles_held hk hcheck hsuper code hcode)
      · cases hdb₁
        exact ⟨hk, fun _ _ => .refl⟩
  exact ⟨hroles.1.withUsers _, fun hadmits hsuper => hroles.2 hadmits hsuper⟩

theorem lawful_assignRole {userId : ℕ} {data : RoleAssignmentCreate} {admits : Prop} (hk : WellKept db)
    (h : assignRole db (contextOf db actor) userId data = .ok db') : Lawful db db' actor admits := by
  simp only [assignRole, bind_eq_ok, require_eq_ok] at h
  obtain ⟨user, -, role, hrole, -, -, h⟩ := h
  split at h
  · simp only [pure_eq_ok] at h
    subst h
    exact ⟨hk, fun _ _ => .refl⟩
  · simp only [checkAssignment, bind_eq_ok, pure_eq_ok] at h
    obtain ⟨_, ⟨-, -, -, -, hassign⟩, -, -, rfl⟩ := h
    refine lawful_setUserRoles hk rfl rfl fun hsuper code hcode => ?_
    have hmem : role ∈ db.roles.values := by
      unfold assignedRole at hrole
      split at hrole
      · exact Table.mem_values.2 ⟨_, hrole⟩
      · cases hrole
      · cases hrole
      · exact List.mem_of_find?_eq_some hrole
    rw [List.mem_singleton.1 hcode, hk.roles role hmem]
    have hknown : ∀ c ∈ rolePermissionCodes db role.code, c.isKnown = true :=
      fun c hc => hk.known _ (mem_rolePermissionCodes.1 hc)
    obtain ⟨hcodes, hheld⟩ := held_of_known hknown hassign hsuper
    exact .inr fun c hc => hheld c (subset_resolve hcodes hc)

theorem lawful_removeRole {userId : ℕ} {code : String} {admits : Prop} (hk : WellKept db)
    (h : removeRole db (contextOf db actor) userId code = .ok db') : Lawful db db' actor admits := by
  simp only [removeRole, bind_eq_ok, pure_eq_ok] at h
  obtain ⟨user, -, -, -, -, -, rfl⟩ := h
  refine lawful_setUserRoles hk rfl rfl fun _ other hother => .inl ?_
  have hmem := (List.mem_filter.1 hother).1
  have hstripped : strip other = other := hk.assigned (userId, other) (mem_userRoleCodes.1 hmem)
  rwa [hstripped]

theorem lawful_perform {policy : PasswordPolicy} (call : ℕ × RoleCall) (hk : WellKept db)
    (h : call.2.perform policy db (contextOf db call.1) = .ok db') : Lawful db db' call.1 (CallAdmits db call) := by
  obtain ⟨actor, call⟩ := call
  cases call with
  | createRole data => exact lawful_createRole hk h
  | updateRole roleId data => exact lawful_updateRole hk h
  | replaceRolePermissions roleId codes => exact lawful_replace hk h
  | grantRolePermissions roleId codes => exact lawful_grant hk h
  | revokeRolePermissions roleId codes => exact lawful_revoke hk h
  | duplicateRole roleId data => exact lawful_duplicateRole hk h
  | deleteRoles ids => exact lawful_deleteRoles hk h
  | createUser data => exact lawful_createUser hk h
  | updateUser userId data => exact lawful_updateUser hk h
  | assignRole userId data => exact lawful_assignRole hk h
  | removeRole userId code => exact lawful_removeRole hk h

/-- Step lemma: a refused call changes nothing, an accepted one is lawful. -/
theorem lawful_callStep (policy : PasswordPolicy) (db : AuthDb) (call : ℕ × RoleCall) (hk : WellKept db) :
    Lawful db (callStep policy db call) call.1 (CallAdmits db call) := by
  cases h : call.2.perform policy db (contextOf db call.1) with
  | error e =>
    have hsame : callStep policy db call = db := by simp only [callStep, h, orKeep]
    rw [hsame]
    exact ⟨hk, fun _ _ => .refl⟩
  | ok db' =>
    have hnew : callStep policy db call = db' := by simp only [callStep, h, orKeep]
    rw [hnew]
    exact lawful_perform call hk h

end

/-- **No delegation beyond one's own rights**, in a run whose grants and revocations complete no page that is new for
the role and not held by the actor: no call of an actor without the wildcard stores a code that was not stored and is
not held, or gives a user a role with such a code. -/
theorem no_delegation (policy : PasswordPolicy) {db : AuthDb} {calls : List (ℕ × RoleCall)} (h : WellKept db)
    (hm : Meets (callStep policy) CallAdmits db calls) :
    Meets (callStep policy) (fun db call =>
      can db call.1 .wildcard = false → NoDelegation db (callStep policy db call) call.1) db calls :=
  meets_of_invariant WellKept (fun db call hk _ => (lawful_callStep policy db call hk).1)
    (fun db call hk hadmits hsuper => (lawful_callStep policy db call hk).2 hadmits hsuper) h hm

/-- A manager of roles that holds one code of the chart of accounts, and a role with another one. -/
def delegationExample : AuthDb where
  users := Table.empty.insert ⟨"U1", "manager", "m@example.com", "Manager", "ACTIVE", false⟩
  roles := ((Table.empty.insert ⟨"MANAGER", "Manager", none, "ACTIVE"⟩).insert
    ⟨"ACCOUNTS", "Accounts", none, "ACTIVE"⟩)
  policies := {(.role "MANAGER", .of .role .manage), (.role "MANAGER", .of .adminRoles .create),
    (.role "MANAGER", .of .chartOfAccounts .manage), (.role "ACCOUNTS", .of .chartOfAccounts .create)}
  assignments := [(1, "MANAGER")]

/-- The role gets `role.manage` and its page, which the manager holds, and loses it again. -/
theorem no_delegation_grant :
    let calls : List (ℕ × RoleCall) :=
      [(1, .grantRolePermissions 2 {.of .role .manage}), (1, .revokeRolePermissions 2 {.of .role .manage})]
    Meets (callStep ⟨8, 128⟩) (fun db call =>
      can db call.1 .wildcard = false → NoDelegation db (callStep ⟨8, 128⟩ db call) call.1) delegationExample calls :=
  no_delegation ⟨8, 128⟩ ⟨by decide +kernel, by decide +kernel, by decide +kernel⟩ (by decide +kernel)

/-- Granting `chart_of_accounts.manage` completes a page that the manager does not hold. -/
theorem grant_delegates :
    can delegationExample 1 .wildcard = false ∧
    ¬NoDelegation delegationExample (callStep ⟨8, 128⟩ delegationExample
      (1, .grantRolePermissions 2 {.of .chartOfAccounts .manage})) 1 := by
  refine ⟨by decide, fun h => ?_⟩
  have hpage := h.1 "ACCOUNTS" (.of .financeChartOfAccounts .create) (by decide)
  revert hpage
  decide

end LcsSystem
