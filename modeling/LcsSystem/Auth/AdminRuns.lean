import LcsSystem.Auth.AdminRequests
import LcsSystem.Auth.Delegation

/-!
# A super administrator remains in every interleaving

`UserPlan.Checked` is what a plan that takes the role away, or deactivates its user, owes to the checks it has passed: it
holds the lock of the role, and somebody else is an active super administrator. Nobody can take that away from it without
the lock, except by a deletion.
-/

namespace LcsSystem
open Relational Checks Transactions Transition

section
variable {db db' : AuthDb} {id userId : ℕ} {codes : List String}

/-! ## Tables -/

def OthersRemain (db : AuthDb) (userId : ℕ) : Prop := ∃ id, id ≠ userId ∧ ActiveSuperAdmin db id

/-- What a write leaves of the super administrators. -/
structure AdminsKept (db db' : AuthDb) : Prop where
  active : ∀ id, ActiveSuperAdmin db id → ActiveSuperAdmin db' id
  holders : ∀ id, ((db.users.get? id).isSome → superAdminRole ∈ userRoleCodes db id) →
    (db'.users.get? id).isSome → superAdminRole ∈ userRoleCodes db' id

theorem AdminsKept.othersRemain (h : AdminsKept db db') (hothers : OthersRemain db userId) : OthersRemain db' userId := by
  obtain ⟨id, hne, hactive⟩ := hothers
  exact ⟨id, hne, h.active id hactive⟩

/-- The users and who holds the role are as before. -/
theorem AdminsKept.of_eq (husers : db'.users = db.users)
    (hroles : ∀ id, superAdminRole ∈ userRoleCodes db id → superAdminRole ∈ userRoleCodes db' id) : AdminsKept db db' where
  active id h := ⟨hroles id h.1, husers ▸ h.2⟩
  holders id h hsome := hroles id (h (husers ▸ hsome))

theorem isSome_of_active (h : ActiveSuperAdmin db id) : (db.users.get? id).isSome := by
  obtain ⟨-, hactive⟩ := h
  cases hget : db.users.get? id with
  | none =>
    rw [hget] at hactive
    cases hactive
  | some user => rfl

theorem superAdmin_mem_stripped (h : superAdminRole ∈ codes) : superAdminRole ∈ strippedCodes codes :=
  mem_strippedCodes.2 ⟨by decide, superAdminRole, h, by decide⟩

/-! ## Writes on a user -/

namespace UserPlan
variable {plan : UserPlan}

def RemovesRole (plan : UserPlan) : Prop := ∃ codes, plan.roles = some codes ∧ superAdminRole ∉ codes

def Deactivates (plan : UserPlan) : Prop := ∃ data status, plan.data = some data ∧ data.status = some status ∧ isActive status = false

theorem userRoleCodes_write (plan : UserPlan) (db : AuthDb) (id : ℕ) :
    userRoleCodes (plan.write db) id =
      if id = plan.userId then (plan.roles.map strippedCodes).getD (userRoleCodes db id) else userRoleCodes db id := by
  have hroles : userRoleCodes (plan.writeRoles db) id =
      if id = plan.userId then (plan.roles.map strippedCodes).getD (userRoleCodes db id) else userRoleCodes db id := by
    unfold writeRoles
    cases plan.roles with
    | none => simp
    | some codes => simp [userRoleCodes_setUserRoles]
  unfold write
  cases plan.data <;> exact hroles

theorem get?_write (plan : UserPlan) (db : AuthDb) (id : ℕ) :
    (plan.write db).users.get? id =
      if id = plan.userId then (db.users.get? id).map fun row => (plan.data.map fun data => plan.flushed data row).getD row
      else db.users.get? id := by
  have hroles : (plan.writeRoles db).users = db.users := by
    unfold writeRoles
    cases plan.roles <;> rfl
  unfold write
  cases plan.data with
  | none => simp [hroles]
  | some data => simp [Table.get?_modify]

theorem write_roles (plan : UserPlan) (db : AuthDb) : (plan.write db).roles = db.roles := by
  unfold write writeRoles
  cases plan.data <;> cases plan.roles <;> rfl

theorem write_policies (plan : UserPlan) (db : AuthDb) : (plan.write db).policies = db.policies := by
  unfold write writeRoles
  cases plan.data <;> cases plan.roles <;> rfl

/-- A flush that does not deactivate leaves an active user active. -/
theorem isActive_flushed (h : ¬plan.Deactivates) {data : UserUpdate} (hdata : plan.data = some data) {row : User}
    (hrow : isActive row.status = true) : isActive (plan.flushed data row).status = true := by
  change isActive (if (data.applyTo plan.loaded).status = plan.loaded.status then row.status
    else (data.applyTo plan.loaded).status) = true
  split
  · exact hrow
  · next hsame =>
    change isActive ((data.status.map upper).getD plan.loaded.status) = true
    cases hstatus : data.status with
    | none => exact absurd (by simp [UserUpdate.applyTo, hstatus]) hsame
    | some status =>
      have hactive : isActive status = true := by
        by_contra hnot
        exact h ⟨data, status, hdata, hstatus, Bool.eq_false_iff.2 hnot⟩
      rw [Option.map_some, Option.getD_some, isActive, upper_upper]
      exact hactive

/-- Any other user stays what it is. -/
theorem active_write_of_ne (hne : id ≠ plan.userId) (h : ActiveSuperAdmin db id) : ActiveSuperAdmin (plan.write db) id := by
  refine ⟨?_, ?_⟩
  · rw [userRoleCodes_write, if_neg hne]
    exact h.1
  · rw [get?_write, if_neg hne]
    exact h.2

theorem mem_roles_write (h : ¬plan.RemovesRole) (hid : superAdminRole ∈ userRoleCodes db id) :
    superAdminRole ∈ userRoleCodes (plan.write db) id := by
  rw [userRoleCodes_write]
  split
  · cases hroles : plan.roles with
    | none => exact hid
    | some codes =>
      refine superAdmin_mem_stripped ?_
      by_contra hnot
      exact h ⟨codes, hroles, hnot⟩
  · exact hid

/-- A plan that neither takes the role away nor deactivates its user. -/
theorem adminsKept_write (hroles : ¬plan.RemovesRole) (hstatus : ¬plan.Deactivates) : AdminsKept db (plan.write db) where
  active id h := by
    refine ⟨mem_roles_write hroles h.1, ?_⟩
    rw [get?_write]
    split
    · obtain ⟨user, hget⟩ := Option.isSome_iff_exists.1 (isSome_of_active h)
      have hactive := h.2
      rw [hget] at hactive ⊢
      cases hdata : plan.data with
      | none => exact hactive
      | some data => exact isActive_flushed hstatus hdata hactive
    · exact h.2
  holders id h hsome := by
    refine mem_roles_write hroles (h ?_)
    rw [get?_write] at hsome
    split at hsome
    · rwa [Option.isSome_map] at hsome
    · exact hsome

/-! ## Checks -/

theorem mem_locks_passed {k : Unit} (h : k ∈ plan.passed.locks) : k ∈ plan.locks := by
  unfold passed at h
  split at h <;> exact h

theorem locks_eq (h : plan.locked = true) : plan.locks = [()] := if_pos h

/-- The plan may write what it has been checked for. -/
def Safe (plan : UserPlan) (db : AuthDb) : Prop := plan.locked = true ∧ OthersRemain db plan.userId

structure Checked (plan : UserPlan) (db : AuthDb) : Prop where
  roles : plan.roleCheck = false → plan.RemovesRole → plan.Safe db
  status : plan.statusCheck = false → plan.Deactivates → plan.Safe db

theorem Checked.passed (h : plan.Checked db) (hsafe : plan.Safe db) : plan.passed.Checked db := by
  unfold UserPlan.passed
  split
  · exact ⟨fun _ _ => hsafe, h.status⟩
  · exact ⟨h.roles, fun _ _ => hsafe⟩

/-- The new roles hold the protected one. -/
theorem Checked.passed_of_mem (h : plan.Checked db) (hmem : superAdminRole ∈ plan.newCodes) : plan.passed.Checked db := by
  unfold newCodes at hmem
  split at hmem
  · next hrole =>
    rw [UserPlan.passed, if_pos hrole]
    refine ⟨fun _ => ?_, h.status⟩
    rintro ⟨codes, hcodes, hnot⟩
    change plan.roles = some codes at hcodes
    rw [hcodes] at hmem
    exact absurd hmem hnot
  · cases hmem

/-- The user of the plan does not hold the role, so the super administrator who remains is another one. -/
theorem Checked.safe_of_not_mem (h : plan.Checked db) (hI : SuperAdminRemains db) (hlocked : plan.locked = true)
    (hnot : superAdminRole ∉ plan.rolesNow db) : plan.Safe db := by
  obtain ⟨id, hactive⟩ := hI.user
  have hother (hroles : superAdminRole ∉ userRoleCodes db plan.userId) : plan.Safe db := by
    refine ⟨hlocked, id, ?_, hactive⟩
    rintro rfl
    exact hroles hactive.1
  unfold rolesNow at hnot
  split at hnot
  · exact hother hnot
  · next hrole =>
    cases hroles : plan.roles with
    | none =>
      rw [hroles] at hnot
      exact hother hnot
    | some codes =>
      rw [hroles] at hnot
      exact h.roles (Bool.eq_false_iff.2 hrole) ⟨codes, hroles, hnot⟩

theorem Checked.locks (h : plan.Checked db) : { plan with locked := true }.Checked db where
  roles hrole hremoves := ⟨rfl, (h.roles hrole hremoves).2⟩
  status hstatus hdeactivates := ⟨rfl, (h.status hstatus hdeactivates).2⟩

/-- A plan without the lock has nothing to lose. -/
theorem Checked.frame (h : plan.Checked db) (hkept : plan.locked = true → AdminsKept db db') : plan.Checked db' where
  roles hrole hremoves := by
    obtain ⟨hlocked, hothers⟩ := h.roles hrole hremoves
    exact ⟨hlocked, (hkept hlocked).othersRemain hothers⟩
  status hstatus hdeactivates := by
    obtain ⟨hlocked, hothers⟩ := h.status hstatus hdeactivates
    exact ⟨hlocked, (hkept hlocked).othersRemain hothers⟩

theorem locked_planOf {context : Context} {loaded : User} {request : UserRequest}
    (h : planOf db context userId loaded request = .ok plan) : plan.locked = false := by
  cases request with
  | update data =>
    simp only [planOf, bind_eq_ok, pure_eq_ok] at h
    obtain ⟨-, -, rfl⟩ := h
    rfl
  | assign data =>
    simp only [planOf, bind_eq_ok] at h
    obtain ⟨role, -, -, -, h⟩ := h
    split at h
    · obtain rfl := pure_eq_ok.1 h
      rfl
    · simp only [bind_eq_ok, pure_eq_ok] at h
      obtain ⟨-, -, rfl⟩ := h
      rfl
  | remove roleCode =>
    simp only [planOf, bind_eq_ok, pure_eq_ok] at h
    obtain ⟨-, -, rfl⟩ := h
    rfl

/-- What the guards let through: every change that needs a check waits for it. -/
theorem checked_planOf {context : Context} {loaded : User} {request : UserRequest}
    (h : planOf db context userId loaded request = .ok plan) : plan.Checked db := by
  cases request with
  | update data =>
    simp only [planOf, bind_eq_ok, pure_eq_ok] at h
    obtain ⟨-, -, rfl⟩ := h
    refine ⟨fun hrole => ?_, fun hstatus => ?_⟩
    · rintro ⟨codes, hcodes, -⟩
      change changesRoles (userRoleCodes db userId) (requestedRoleCodes data.roleCode) = false at hrole
      simp [hrole] at hcodes
    · rintro ⟨data', status, hdata, hsome, hinactive⟩
      obtain rfl := Option.some.inj hdata
      change (data.status.any fun status => !isActive status) = false at hstatus
      simp [hsome, hinactive] at hstatus
  | assign data =>
    simp only [planOf, bind_eq_ok] at h
    obtain ⟨role, -, -, -, h⟩ := h
    split at h
    · obtain rfl := pure_eq_ok.1 h
      exact ⟨fun _ => (by simp [RemovesRole]), fun _ => (by simp [Deactivates])⟩
    · simp only [bind_eq_ok, pure_eq_ok] at h
      obtain ⟨-, -, rfl⟩ := h
      exact ⟨fun hrole => (by cases hrole), fun _ => by simp [Deactivates]⟩
  | remove roleCode =>
    simp only [planOf, bind_eq_ok, pure_eq_ok] at h
    obtain ⟨-, -, rfl⟩ := h
    exact ⟨fun hrole => (by cases hrole), fun _ => by simp [Deactivates]⟩

end UserPlan

/-! ## Writes on roles -/

/-- What a write leaves of the protected role. -/
structure RoleKept (db db' : AuthDb) : Prop where
  role : roleIsActive db superAdminRole = true → roleIsActive db' superAdminRole = true
  grant : (.role superAdminRole, .wildcard) ∈ db.policies → (.role superAdminRole, .wildcard) ∈ db'.policies

theorem SuperAdminRemains.of_kept (h : SuperAdminRemains db) (hadmins : AdminsKept db db') (hrole : RoleKept db db') :
    SuperAdminRemains db' where
  user := by
    obtain ⟨id, hactive⟩ := h.user
    exact ⟨id, hadmins.active id hactive⟩
  role := hrole.role h.role
  grant := hrole.grant h.grant

theorem roleIsActive_iff {code : String} :
    roleIsActive db code = true ↔ ∃ id role, db.roles.get? id = some role ∧ role.code = code ∧ isActive role.status = true := by
  simp only [roleIsActive, List.any_eq_true, Bool.and_eq_true, beq_iff_eq, Table.mem_values]
  constructor
  · rintro ⟨role, ⟨id, hget⟩, hcode, hactive⟩
    exact ⟨id, role, hget, hcode, hactive⟩
  · rintro ⟨id, role, hget, hcode, hactive⟩
    exact ⟨role, ⟨id, hget⟩, hcode, hactive⟩

theorem grant_setRolePermissions {roleCode : String} {S : Finset PermissionCode}
    (h : roleCode = superAdminRole → .wildcard ∈ S) (hgrant : (.role superAdminRole, .wildcard) ∈ db.policies) :
    (.role superAdminRole, .wildcard) ∈ (setRolePermissions db roleCode S).policies := by
  rw [← mem_rolePermissionCodes, rolePermissionCodes_setRolePermissions]
  split
  · next hcode => exact h hcode.symm
  · exact mem_rolePermissionCodes.2 hgrant

/-- An update of a role: of the protected one, neither the status nor the wildcard. -/
theorem kept_updateRole {context : Context} {roleId : ℕ} {data : RoleUpdate}
    (h : updateRole db context roleId data = .ok db') : AdminsKept db db' ∧ RoleKept db db' := by
  simp only [updateRole, bind_eq_ok, check_eq_ok] at h
  obtain ⟨role, hlocked, _, hstatus, _, hwildcard, h⟩ := h
  have hget := lockedRole_eq_ok hlocked
  simp only [checkRoleStatus, bind_eq_ok, check_eq_ok] at hstatus
  obtain ⟨_, hdeactivates, -⟩ := hstatus
  have hrole : roleIsActive db superAdminRole = true → ∀ f : Role → Role,
      (∀ r, (f r).code = r.code) → (∀ r, (f r).status = (data.status.map upper).getD r.status) →
      roleIsActive { db with roles := db.roles.modify roleId f } superAdminRole = true := by
    intro hactive f hcode hnew
    obtain ⟨id, stored, hstored, hcode', hactive'⟩ := roleIsActive_iff.1 hactive
    by_cases hid : id = roleId
    · subst hid
      obtain rfl := Option.some.inj (hget.symm.trans hstored)
      refine roleIsActive_iff.2 ⟨id, f role, by rw [Table.get?_modify_self, hget, Option.map_some], (hcode _).trans hcode', ?_⟩
      rw [hnew]
      cases hs : data.status with
      | none => exact hactive'
      | some status =>
        have hkeeps := hdeactivates.resolve_left (by rw [hcode']; decide)
        rw [hs] at hkeeps
        rw [Option.map_some, Option.getD_some, isActive, upper_upper]
        simpa [isActive] using hkeeps
    · exact roleIsActive_iff.2 ⟨id, stored, by rw [Table.get?_modify_of_ne f hid, hstored], hcode', hactive'⟩
  split at h
  · obtain rfl := pure_eq_ok.1 h
    exact ⟨.of_eq rfl fun _ hid => hid, fun hactive => hrole hactive _ (fun _ => rfl) fun _ => rfl, fun hgrant => hgrant⟩
  · next codes hcodes =>
    simp only [bind_eq_ok] at h
    obtain ⟨-, -, -, -, hsync⟩ := h
    obtain ⟨-, rfl⟩ := sync_spec hsync
    refine ⟨.of_eq rfl fun _ hid => hid, fun hactive => hrole hactive _ (fun _ => rfl) fun _ => rfl, fun hgrant => ?_⟩
    refine grant_setRolePermissions (fun hcode => ?_) hgrant
    have hmem := hwildcard.resolve_left (by rw [hcode]; decide)
    rw [hcodes] at hmem
    rw [resolve_wildcard (of_decide_eq_true hmem)]
    exact Finset.mem_singleton_self _

theorem userRoleCodes_deleteRolePolicies {roles : List Role} (h : ∀ role ∈ roles, isProtectedRole role.code = false)
    (hid : superAdminRole ∈ userRoleCodes db id) :
    superAdminRole ∈ userRoleCodes (roles.foldl (fun db role => deleteRolePolicies db role.code) db) id := by
  induction roles generalizing db with
  | nil => exact hid
  | cons role roles ih =>
    refine ih (fun r hr => h r (List.mem_cons_of_mem _ hr)) ?_
    rw [mem_userRoleCodes] at hid ⊢
    have hother := h role List.mem_cons_self
    refine List.mem_filter.2 ⟨hid, bne_iff_ne.2 fun heq => ?_⟩
    change superAdminRole = role.code at heq
    rw [← heq] at hother
    cases hother

theorem grant_deleteRolePolicies {roles : List Role} (h : ∀ role ∈ roles, isProtectedRole role.code = false)
    (hgrant : (.role superAdminRole, .wildcard) ∈ db.policies) :
    (.role superAdminRole, .wildcard) ∈ (roles.foldl (fun db role => deleteRolePolicies db role.code) db).policies := by
  induction roles generalizing db with
  | nil => exact hgrant
  | cons role roles ih =>
    refine ih (fun r hr => h r (List.mem_cons_of_mem _ hr)) ?_
    refine Finset.mem_filter.2 ⟨hgrant, ?_⟩
    have hother := h role List.mem_cons_self
    rintro heq
    injection heq with hcode
    rw [← hcode] at hother
    cases hother

theorem deleteRolePolicies_users (roles : List Role) (db : AuthDb) :
    (roles.foldl (fun db role => deleteRolePolicies db role.code) db).users = db.users := by
  induction roles generalizing db with
  | nil => rfl
  | cons role roles ih => exact ih _

theorem deleteRolePolicies_roles (roles : List Role) (db : AuthDb) :
    (roles.foldl (fun db role => deleteRolePolicies db role.code) db).roles = db.roles := by
  induction roles generalizing db with
  | nil => rfl
  | cons role roles ih => exact ih _

theorem kept_deleteRoles {ids : List ℕ} (h : deleteRoles db ids = .ok db') : AdminsKept db db' ∧ RoleKept db db' := by
  simp only [deleteRoles, bind_eq_ok, check_eq_ok, pure_eq_ok] at h
  obtain ⟨-, hprotected, -, -, -, -, rfl⟩ := h
  refine ⟨.of_eq (deleteRolePolicies_users _ _) fun id hid => ?_, ⟨fun hactive => ?_, fun hgrant => ?_⟩⟩
  · exact userRoleCodes_deleteRolePolicies hprotected hid
  · obtain ⟨id, role, hget, hcode, hstatus⟩ := roleIsActive_iff.1 hactive
    refine roleIsActive_iff.2 ⟨id, role, ?_, hcode, hstatus⟩
    rw [Table.get?_erase, deleteRolePolicies_roles, hget, Option.filter_some, if_pos]
    rw [Bool.not_eq_true', List.contains_eq_mem, decide_eq_false_iff_not]
    intro hmem
    have hother := hprotected role (List.mem_filterMap.2 ⟨id, List.mem_dedup.2 hmem, hget⟩)
    rw [hcode] at hother
    cases hother
  · exact grant_deleteRolePolicies hprotected hgrant

/-! ## Deletions -/

theorem mem_deleteUserPolicies {ids : List ℕ} (h : id ∉ ids) (hid : superAdminRole ∈ userRoleCodes db id) :
    superAdminRole ∈ userRoleCodes (ids.foldl deleteUserPolicies db) id := by
  induction ids generalizing db with
  | nil => exact hid
  | cons i ids ih =>
    rw [List.mem_cons, not_or] at h
    refine ih h.2 ?_
    rw [mem_userRoleCodes] at hid ⊢
    exact List.mem_filter.2 ⟨hid, bne_iff_ne.2 h.1⟩

theorem roleKept_deleteUserPolicies (ids : List ℕ) (db : AuthDb) :
    RoleKept db (ids.foldl deleteUserPolicies db) ∧ (ids.foldl deleteUserPolicies db).users = db.users := by
  induction ids generalizing db with
  | nil => exact ⟨⟨fun h => h, fun h => h⟩, rfl⟩
  | cons i ids ih =>
    obtain ⟨hkept, husers⟩ := ih (deleteUserPolicies db i)
    refine ⟨⟨fun hactive => hkept.role hactive, fun hgrant => hkept.grant ?_⟩, husers⟩
    exact Finset.mem_filter.2 ⟨hgrant, by simp⟩

/-- A deletion of users none of whom is an active super administrator. -/
theorem kept_deleteUserRows {users : List (ℕ × User)} (h : ∀ row ∈ users, ¬ActiveSuperAdmin db row.1) :
    AdminsKept db (deleteUserRows db users) ∧ RoleKept db (deleteUserRows db users) := by
  obtain ⟨hrole, -⟩ := roleKept_deleteUserPolicies (users.map Prod.fst) db
  have hget (id : ℕ) (hid : id ∉ users.map Prod.fst) : (deleteUserRows db users).users.get? id = db.users.get? id := by
    simp only [deleteUserRows, Table.get?_erase]
    cases db.users.get? id <;> simp_all
  have hgone (id : ℕ) (hid : id ∈ users.map Prod.fst) : (deleteUserRows db users).users.get? id = none := by
    simp only [deleteUserRows, Table.get?_erase]
    cases db.users.get? id <;> simp_all
  refine ⟨⟨fun id hactive => ?_, fun id hholds hsome => ?_⟩, ⟨hrole.role, hrole.grant⟩⟩
  · have hid : id ∉ users.map Prod.fst := by
      intro hmem
      obtain ⟨row, hrow, rfl⟩ := List.mem_map.1 hmem
      exact h row hrow hactive
    refine ⟨?_, by rw [hget id hid]; exact hactive.2⟩
    exact mem_deleteUserPolicies hid hactive.1
  · by_cases hid : id ∈ users.map Prod.fst
    · rw [hgone id hid] at hsome
      cases hsome
    · rw [hget id hid] at hsome
      exact mem_deleteUserPolicies hid (hholds hsome)

/-! ## Statements -/

/-- What an open request may rely on. -/
def AdminTxn.Relies (db : AuthDb) (t : AdminTxn) : Prop :=
  match t.stage with
  | .planned plan => plan.Checked db
  | .current plan | .holders plan => plan.Checked db ∧ plan.locked = true
  | .rows plan ids => plan.Checked db ∧ plan.locked = true ∧
      ∀ id ∈ ids, id ≠ plan.userId ∧ ((db.users.get? id).isSome → superAdminRole ∈ userRoleCodes db id)
  | .opened | .targets | .guards .. | .deleting .. | .deletes _ => True

namespace AdminTxn
variable {t t' : AdminTxn} {free : Unit → Bool} {event : Option Unit}

/-- A commit either keeps every super administrator, or holds the lock of the role and leaves another one. -/
theorem next_commits (ht : t.Relies db) (hcounts : CountsWhatIs db t) (h : t.next db free = .commits db' event) :
    RoleKept db db' ∧ (AdminsKept db db' ∨ t.locks = [()] ∧ ∃ id, ActiveSuperAdmin db' id) := by
  obtain ⟨call, own, stage⟩ := t
  cases stage with
  | opened => cases h
  | targets =>
    simp only [next] at h
    split at h
    · split at h <;> cases h
    · cases h
    · have hupdate {r : AuthResult AuthDb} (h : commitOf r = .commits db' event) : r = .ok db' := by
        obtain ⟨db₁, hr, hdb⟩ := Outcome.orEnd_eq_commits.1 h
        cases hdb
        exact hr
      split at h
      · have hkept := kept_updateRole (hupdate (Outcome.whenFree_eq_commits.1 h).2)
        exact ⟨hkept.2, .inl hkept.1⟩
      · have hkept := kept_updateRole (hupdate h)
        exact ⟨hkept.2, .inl hkept.1⟩
    · obtain ⟨db₁, hdelete, hdb⟩ := Outcome.orEnd_eq_commits.1 h
      cases hdb
      have hkept := kept_deleteRoles hdelete
      exact ⟨hkept.2, .inl hkept.1⟩
  | guards userId request loaded =>
    simp only [next, Outcome.orEnd_eq_commits] at h
    obtain ⟨plan, -, h⟩ := h
    cases h
  | planned plan =>
    simp only [next] at h
    split at h
    · split at h
      · cases h
      · simp [becomes] at h
    · next hchecks =>
      cases h
      rw [Bool.or_eq_true, not_or, Bool.not_eq_true, Bool.not_eq_true] at hchecks
      obtain ⟨hrole, hstatus⟩ := hchecks
      refine ⟨⟨fun hactive => ?_, fun hgrant => ?_⟩, ?_⟩
      · unfold roleIsActive
        rw [plan.write_roles]
        exact hactive
      · rw [plan.write_policies]
        exact hgrant
      · have hsafe (h : plan.Safe db) : (⟨call, own, .planned plan⟩ : AdminTxn).locks = [()] ∧ ∃ id, ActiveSuperAdmin (plan.write db) id := by
          obtain ⟨hlocked, id, hne, hactive⟩ := h
          exact ⟨UserPlan.locks_eq hlocked, id, UserPlan.active_write_of_ne hne hactive⟩
        by_cases hremoves : plan.RemovesRole
        · exact .inr (hsafe (ht.roles hrole hremoves))
        · by_cases hdeactivates : plan.Deactivates
          · exact .inr (hsafe (ht.status hstatus hdeactivates))
          · exact .inl (UserPlan.adminsKept_write hremoves hdeactivates)
  | current plan =>
    simp only [next] at h
    split at h <;> cases h
  | holders plan => cases h
  | rows plan ids =>
    simp only [next] at h
    split at h <;> cases h
  | deleting ids users =>
    simp only [next, Outcome.orEnd_eq_commits] at h
    obtain ⟨-, -, h⟩ := h
    cases h
  | deletes users =>
    simp only [next] at h
    split at h
    · cases h
    · cases h
      have hkept := kept_deleteUserRows hcounts
      exact ⟨hkept.2, .inl hkept.1⟩

theorem next_locks (h : t.next db free = .continues t') : ∀ k ∈ t'.locks, k ∈ t.locks ∨ free k = true := by
  obtain ⟨call, own, stage⟩ := t
  cases stage with
  | opened =>
    cases h
    intro k hk
    cases hk
  | targets =>
    simp only [next] at h
    split at h
    · split at h
      · cases h
        intro k hk
        cases hk
      · cases h
    · cases h
      intro k hk
      cases hk
    · split at h <;> simp [commitOf] at h
    · simp [commitOf] at h
  | guards userId request loaded =>
    simp only [next, Outcome.orEnd_eq_continues] at h
    obtain ⟨plan, hplan, h⟩ := h
    cases h
    intro k hk
    change k ∈ plan.locks at hk
    rw [UserPlan.locks, UserPlan.locked_planOf hplan] at hk
    cases hk
  | planned plan =>
    simp only [next] at h
    split at h
    · split at h
      · cases h
        exact fun k hk => .inl (UserPlan.mem_locks_passed hk)
      · obtain ⟨hfree, h⟩ := Outcome.whenFree_eq_continues.1 h
        exact fun k _ => .inr hfree
    · cases h
  | current plan =>
    simp only [next] at h
    split at h
    · cases h
      exact fun k hk => .inl hk
    · cases h
      exact fun k hk => .inl (UserPlan.mem_locks_passed hk)
  | holders plan =>
    cases h
    exact fun k hk => .inl hk
  | rows plan ids =>
    simp only [next] at h
    split at h
    · cases h
      exact fun k hk => .inl (UserPlan.mem_locks_passed hk)
    · cases h
  | deleting ids users =>
    simp only [next, Outcome.orEnd_eq_continues] at h
    obtain ⟨-, -, h⟩ := h
    cases h
    intro k hk
    cases hk
  | deletes users =>
    simp only [next] at h
    split at h <;> cases h

theorem next_continues (hI : SuperAdminRemains db) (ht : t.Relies db) (hcounts : CountsWhatIs db t)
    (h : t.next db free = .continues t') : t'.Relies db := by
  obtain ⟨call, own, stage⟩ := t
  cases stage with
  | opened =>
    cases h
    trivial
  | targets =>
    simp only [next] at h
    split at h
    · split at h
      · cases h
        trivial
      · cases h
    · cases h
      trivial
    · split at h <;> simp [commitOf] at h
    · simp [commitOf] at h
  | guards userId request loaded =>
    simp only [next, Outcome.orEnd_eq_continues] at h
    obtain ⟨plan, hplan, h⟩ := h
    cases h
    exact UserPlan.checked_planOf hplan
  | planned plan =>
    simp only [next] at h
    split at h
    · split at h
      · next hmem =>
        cases h
        exact UserPlan.Checked.passed_of_mem ht hmem
      · obtain ⟨-, h⟩ := Outcome.whenFree_eq_continues.1 h
        cases h
        exact ⟨UserPlan.Checked.locks ht, rfl⟩
    · cases h
  | current plan =>
    obtain ⟨hchecked, hlocked⟩ := ht
    simp only [next] at h
    split at h
    · cases h
      exact ⟨hchecked, hlocked⟩
    · next hnot =>
      cases h
      exact hchecked.passed (hchecked.safe_of_not_mem hI hlocked hnot)
  | holders plan =>
    cases h
    refine ⟨ht.1, ht.2, fun id hid => ?_⟩
    obtain ⟨hmem, hne⟩ := List.mem_filter.1 hid
    exact ⟨of_decide_eq_true hne, fun _ => mem_userRoleCodes.2 (mem_usersWithRole.1 hmem)⟩
  | rows plan ids =>
    obtain ⟨hchecked, hlocked, hids⟩ := ht
    simp only [next] at h
    split at h
    · next hcounted =>
      cases h
      obtain ⟨id, hid, hactive⟩ := List.any_eq_true.1 hcounted
      -- the row that is counted is the committed one, the acting user's own row included
      have hrow : (db.users.get? id).any (fun user => isActive user.status) = true := by
        unfold rowOf at hactive
        split at hactive
        · next hown =>
          obtain ⟨hkeeps, rfl⟩ := hown
          exact hcounts hkeeps hid hactive
        · exact hactive
      obtain ⟨hne, hholds⟩ := hids id hid
      have hsome : (db.users.get? id).isSome := by
        cases hget : db.users.get? id with
        | none =>
          rw [hget] at hrow
          cases hrow
        | some user => rfl
      exact hchecked.passed ⟨hlocked, id, hne, hholds hsome, hrow⟩
    · cases h
  | deleting ids users =>
    simp only [next, Outcome.orEnd_eq_continues] at h
    obtain ⟨-, -, h⟩ := h
    cases h
    trivial
  | deletes users =>
    simp only [next] at h
    split at h <;> cases h

/-- A request without the lock relies on nothing that a commit can change; one with the lock is left alone. -/
theorem Relies.frame (ht : t.Relies db) (hkept : t.locks = [()] → AdminsKept db db') : t.Relies db' := by
  obtain ⟨call, own, stage⟩ := t
  cases stage with
  | planned plan => exact UserPlan.Checked.frame ht fun hlocked => hkept (UserPlan.locks_eq hlocked)
  | current plan | holders plan => exact ⟨ht.1.frame fun hlocked => hkept (UserPlan.locks_eq hlocked), ht.2⟩
  | rows plan ids =>
    obtain ⟨hchecked, hlocked, hids⟩ := ht
    have hkept := hkept (UserPlan.locks_eq hlocked)
    exact ⟨hchecked.frame fun _ => hkept, hlocked, fun id hid => ⟨(hids id hid).1, hkept.holders id (hids id hid).2⟩⟩
  | opened | targets | guards | deleting | deletes => trivial

end AdminTxn
end

/-! ## Runs -/

theorem administering_rules :
    Rules administering (fun db _ => SuperAdminRemains db) (fun db t => t.Relies db) (fun db _ t => CountsWhatIs db t) where
  start_locks _ := rfl
  start _ _ := trivial
  acquires h := AdminTxn.next_locks h
  continues hI ht hcounts h := AdminTxn.next_continues hI ht hcounts h
  commits hI ht hcounts h := by
    obtain ⟨hrole, hkept | ⟨-, hactive⟩⟩ := AdminTxn.next_commits ht hcounts h
    · exact hI.of_kept hkept hrole
    · exact ⟨hactive, hrole.role hI.role, hrole.grant hI.grant⟩
  frame hI ht hu hcounts hfree h := by
    refine hu.frame fun hlocks => ?_
    obtain ⟨-, hkept | ⟨hlocked, -⟩⟩ := AdminTxn.next_commits ht hcounts h
    · exact hkept
    · have hmem {u : AdminTxn} (hu : u.locks = [()]) : () ∈ administering.locks u := by
        change () ∈ u.locks
        rw [hu]
        exact List.mem_singleton_self _
      exact absurd (hmem hlocked) (hfree () (hmem hlocks)).1

/-- **A super administrator remains** in every interleaving in which a request counts its own acting user only while that
user is active, and in which no active super administrator is deleted. -/
theorem super_admin_remains {db : AuthDb} (hdb : SuperAdminRemains db) {as : List (Action AdminCall)}
    (hmeets : Meets administering.step (Protocol.Admits fun db _ t => CountsWhatIs db t) (.idle db) as) :
    SuperAdminRemains (run administering.step (.idle db) as).db :=
  (administering_rules.run (sound_idle _ _ hdb) hmeets).db

/-! ## A deletion at the wrong moment -/

theorem exists_active_iff {db : AuthDb} : (∃ id, ActiveSuperAdmin db id) ↔
    ∃ id ∈ usersWithRole db superAdminRole, (db.users.get? id).any (fun user => isActive user.status) = true := by
  constructor
  · rintro ⟨id, hroles, hactive⟩
    exact ⟨id, mem_usersWithRole.2 (mem_userRoleCodes.1 hroles), hactive⟩
  · rintro ⟨id, hroles, hactive⟩
    exact ⟨id, mem_userRoleCodes.2 (mem_usersWithRole.1 hroles), hactive⟩

def userNamed (name status : String) : User := ⟨name, name, name ++ "@example.com", name, status, false⟩

/-- Ann and Bea are super administrators, Bea's account is closed; Cleo keeps the users. -/
def officeOfThree : AuthDb where
  users := ((Table.empty.insert (userNamed "ann" "ACTIVE")).insert (userNamed "bea" "INACTIVE")).insert (userNamed "cleo" "ACTIVE")
  roles := Table.empty.insert ⟨superAdminRole, "Super Administrator", none, "ACTIVE"⟩
  policies := {(.role superAdminRole, .wildcard)}
  assignments := [(1, superAdminRole), (2, superAdminRole)]

theorem officeOfThree_remains : SuperAdminRemains officeOfThree :=
  ⟨exists_active_iff.2 (by decide +kernel), by decide +kernel, by decide +kernel⟩

def setsStatus (actor userId : ℕ) (status : String) : AdminCall :=
  ⟨⟨actor, true, fun _ => true⟩, .user userId (.update ⟨none, none, none, some status, none⟩), false⟩

def deletesBea : AdminCall := ⟨⟨3, false, fun _ => true⟩, .deleteUsers [2], false⟩

def advances (id n : ℕ) : List (Action AdminCall) := List.replicate n (.advance id)

/-- Bea's account is deleted, and then nothing happens. -/
def deletedAlone : List (Action AdminCall) := .start deletesBea :: advances 1 4

theorem super_admin_remains_alone : SuperAdminRemains (run administering.step (.idle officeOfThree) deletedAlone).db :=
  super_admin_remains officeOfThree_remains (by decide +kernel)

/-- Before the deletion of Bea commits, Ann opens her account again and Bea closes Ann's. -/
def deletedReopened : List (Action AdminCall) :=
  .start deletesBea :: advances 1 3 ++ .start (setsStatus 1 2 "ACTIVE") :: advances 2 4 ++
    .start (setsStatus 2 1 "INACTIVE") :: advances 3 8 ++ advances 1 1

theorem no_super_admin_remains : SuperAdminRemains officeOfThree ∧
    ¬SuperAdminRemains (run administering.step (.idle officeOfThree) deletedReopened).db :=
  ⟨officeOfThree_remains, fun h => absurd (exists_active_iff.1 h.user) (by decide +kernel)⟩

end LcsSystem
