import LcsSystem.Auth.PolicyTable

/-!
# The views of a policy table

A decision on the loaded copy, the effective codes of that copy, and the listings of the rows agree on every table that
the writes reach.
-/

namespace LcsSystem
open Transition

/-! ## Texts -/

theorem userSubject_injective {i j : ℕ} (h : userSubject i = userSubject j) : i = j := by
  have hlist : ("user:".toList ++ (toString i).toList) = "user:".toList ++ (toString j).toList := by
    rw [← String.toList_append, ← String.toList_append]
    exact congrArg String.toList h
  have htext : toString i = toString j := String.toList_inj.1 (List.append_cancel_left hlist)
  have hi := (digits?_toString i).2
  rw [htext, (digits?_toString j).2] at hi
  exact (Option.some.inj hi).symm

theorem roleSubject_injective {r s : String} (h : roleSubject r = roleSubject s) : r = s := by
  have hlist : ("role:".toList ++ r.toList) = "role:".toList ++ s.toList := by
    rw [← String.toList_append, ← String.toList_append]
    exact congrArg String.toList h
  exact String.toList_inj.1 (List.append_cancel_left hlist)

theorem roleCodeOf_roleSubject (role : String) : roleCodeOf (roleSubject role) = some role := by
  have hlist : (roleSubject role).toList = "role:".toList ++ role.toList := String.toList_append
  have hstarts : "role:".toList <+: (roleSubject role).toList := hlist ▸ List.prefix_append _ _
  have hdrop : (roleSubject role).toList.drop 5 = role.toList := by
    rw [hlist]
    rfl
  rw [roleCodeOf, if_pos hstarts, hdrop, String.ofList_toList]

theorem not_prefix_userSubject (userId : ℕ) : ¬"role:".toList <+: (userSubject userId).toList := by
  intro h
  have hlist : (userSubject userId).toList = "user:".toList ++ (toString userId).toList := String.toList_append
  rw [hlist] at h
  have hhead := List.IsPrefix.getElem h (i := 0) (by decide)
  simp at hhead

theorem roleCodeOf_userSubject (userId : ℕ) : roleCodeOf (userSubject userId) = none :=
  if_neg (not_prefix_userSubject userId)

theorem userSubject_ne_roleSubject (userId : ℕ) (role : String) : userSubject userId ≠ roleSubject role := by
  intro h
  have hrole := roleCodeOf_roleSubject role
  rw [← h, roleCodeOf_userSubject] at hrole
  cases hrole

theorem action_text (action : PermissionAction) :
    '.' ∉ action.text.toList ∧ action.text ≠ "" ∧ action.text ≠ "*" ∧ action.text.toList.all (!isSpace ·) = true := by
  cases action <;> decide

theorem resource_text (resource : Resource) : resource.text ≠ "" ∧ resource.text ≠ "*" ∧
    resource.text.toList.all (!isSpace ·) = true := by
  cases resource <;> decide

theorem splitCode_append {obj act : String} (hdot : '.' ∉ act.toList) (hact : act ≠ "") :
    splitCode (obj ++ "." ++ act) = (obj, act) := by
  have hlist : (obj ++ "." ++ act).toList.reverse = act.toList.reverse ++ '.' :: obj.toList.reverse := by
    simp [String.toList_append]
  have hall : ∀ c ∈ act.toList.reverse, (c != '.') = true := by
    intro c hc
    have : c ≠ '.' := fun h => hdot (h ▸ List.mem_reverse.1 hc)
    simpa using this
  have hne : obj ++ "." ++ act ≠ "*" := by
    intro h
    have hlen := congrArg (fun s => s.toList.length) h
    have hpos : act.toList ≠ [] := fun h => hact (String.toList_inj.1 h)
    have := List.length_pos_iff.2 hpos
    simp [String.toList_append] at hlen
    omega
  rw [splitCode, if_neg hne, hlist, List.dropWhile_append_of_pos hall, List.takeWhile_append_of_pos hall]
  simp

/-- The columns of a stored code. -/
theorem splitCode_text (resource : Resource) (action : PermissionAction) :
    splitCode (PermissionCode.of resource action).text = (resource.text, action.text) :=
  splitCode_append (action_text action).1 (action_text action).2.1

theorem strip_text (code : KnownCode) : strip code.1.text = code.1.text := by
  obtain ⟨code, hcode⟩ := code
  cases code with
  | wildcard => exact (by decide : strip "*" = "*")
  | other text => simp [PermissionCode.inCatalog] at hcode
  | of resource action =>
    have h1 := List.all_eq_true.1 (resource_text resource).2.2
    have h2 := List.all_eq_true.1 (action_text action).2.2.2
    have hall : ∀ c ∈ (PermissionCode.of resource action).text.toList, isSpace c = false := by
      intro c hc
      simp only [PermissionCode.text, String.toList_append, List.mem_append] at hc
      rcases hc with (hc | hc) | hc
      · simpa using h1 c hc
      · obtain rfl : c = '.' := by simpa using hc
        rfl
      · simpa using h2 c hc
    rw [strip, stripChars_of_forall hall, String.ofList_toList]

/-- What is stored of a code: both columns, and the code that they are joined to. -/
theorem splitCode_known (code : KnownCode) :
    (splitCode code.1.text).2 ≠ "" ∧ joinCode (splitCode code.1.text).1 (splitCode code.1.text).2 = code.1.text ∧
    code.1.text ≠ "" := by
  obtain ⟨code, hcode⟩ := code
  cases code with
  | wildcard =>
    exact (by decide : (splitCode "*").2 ≠ "" ∧ joinCode (splitCode "*").1 (splitCode "*").2 = "*" ∧ "*" ≠ "")
  | other text => simp [PermissionCode.inCatalog] at hcode
  | of resource action =>
    rw [splitCode_text]
    refine ⟨(action_text action).2.1, ?_, ?_⟩
    · rw [joinCode, if_neg fun h => (resource_text resource).2.1 h.1]
      rfl
    · intro h
      have := congrArg String.toList h
      simp [PermissionCode.text, String.toList_append] at this

/-- A stored code matches a code of the catalog exactly if it is that code or the wildcard. -/
theorem matches_iff (code : KnownCode) (resource : Resource) (action : PermissionAction) :
    (((splitCode code.1.text).1 == "*" || resource.text == (splitCode code.1.text).1) &&
      ((splitCode code.1.text).2 == "*" || action.text == (splitCode code.1.text).2)) = true ↔
    code.1.text = (PermissionCode.of resource action).text ∨ code.1.text = "*" := by
  obtain ⟨code, hcode⟩ := code
  cases code with
  | wildcard =>
    have hstar : splitCode "*" = ("*", "*") := by decide
    simp [hstar, PermissionCode.text]
  | other text => simp [PermissionCode.inCatalog] at hcode
  | of r a =>
    have hstar : (PermissionCode.of r a).text ≠ "*" := by
      intro h
      have hsplit := splitCode_text r a
      rw [h, show splitCode "*" = ("*", "*") by decide] at hsplit
      exact (resource_text r).2.1 (congrArg Prod.fst hsplit).symm
    simp only [splitCode_text, hstar, or_false, Bool.and_eq_true, Bool.or_eq_true, beq_iff_eq,
      (resource_text r).2.1, (action_text a).2.2.1, false_or]
    constructor
    · rintro ⟨h1, h2⟩
      rw [PermissionCode.text, PermissionCode.text, h1, h2]
    · intro h
      have hsplit := splitCode_text r a
      rw [h, splitCode_text, Prod.mk.injEq] at hsplit
      exact hsplit

/-! ## Reachable tables -/

inductive StoredRule : CasbinRule → Prop
  | grant (role : String) (code : KnownCode) : StoredRule (grantRule role code.1.text)
  | assign (userId : ℕ) (role : String) (h : role ≠ "") : StoredRule (assignRule userId role)

def Stored (table : PolicyTable) : Prop := ∀ rule ∈ table, StoredRule rule

theorem mem_distinctTexts {texts : List String} {text : String} :
    text ∈ distinctTexts texts ↔ text ≠ "" ∧ ∃ t ∈ texts, strip t = text := by
  simp only [distinctTexts, List.mem_dedup, List.mem_filter, List.mem_map, decide_eq_true_eq]
  exact and_comm

theorem distinctTexts_known (codes : List KnownCode) :
    distinctTexts (codes.map fun code => code.1.text) = (codes.map fun code => code.1.text).dedup := by
  have hstrip : (codes.map fun code => code.1.text).map strip = codes.map fun code => code.1.text := by
    rw [List.map_map]
    exact List.map_congr_left fun code _ => strip_text code
  rw [distinctTexts, hstrip, List.filter_eq_self.2]
  intro text htext
  obtain ⟨code, -, rfl⟩ := List.mem_map.1 htext
  simpa using (splitCode_known code).2.2

theorem stored_apply (table : PolicyTable) (write : PolicyWrite) (h : Stored table) : Stored (write.apply table) := by
  intro rule hrule
  cases write with
  | setUserRoles userId roleCodes =>
    rcases List.mem_append.1 hrule with hold | hnew
    · exact h rule (List.mem_filter.1 hold).1
    · obtain ⟨role, hrole, rfl⟩ := List.mem_map.1 hnew
      exact .assign userId role (mem_distinctTexts.1 hrole).1
  | setRolePermissions roleCode codes =>
    rcases List.mem_append.1 hrule with hold | hnew
    · exact h rule (List.mem_filter.1 hold).1
    · rw [distinctTexts_known] at hnew
      obtain ⟨text, htext, rfl⟩ := List.mem_map.1 hnew
      obtain ⟨code, -, rfl⟩ := List.mem_map.1 (List.mem_dedup.1 htext)
      exact .grant roleCode code
  | deleteUserPolicies userId => exact h rule (List.mem_filter.1 hrule).1
  | deleteRolePolicies roleCode => exact h rule (List.mem_filter.1 (List.mem_filter.1 hrule).1).1

theorem stored_run (writes : List PolicyWrite) : Stored (run PolicyWrite.apply [] writes) :=
  run_invariant Stored stored_apply writes fun _ hrule => by cases hrule

/-! ## The loaded copy -/

def roleActive (statuses : String → Option String) (role : String) : Bool :=
  (statuses role).any fun status => upper status == "ACTIVE"

section
variable {table : PolicyTable} {statuses : String → Option String} {userId : ℕ} {role : String}

theorem subjectActive_role : subjectActive statuses (roleSubject role) = roleActive statuses role := by
  rw [subjectActive, roleCodeOf_roleSubject]
  rfl

theorem subjectActive_user : subjectActive statuses (userSubject userId) = true := by
  rw [subjectActive, roleCodeOf_userSubject]

theorem loadRow_grant (code : KnownCode) : loadRow statuses (grantRule role code.1.text) =
    if roleActive statuses role = true then
      some ("p", [roleSubject role, (splitCode code.1.text).1, (splitCode code.1.text).2])
    else none := by
  have htokens : tokens (grantRule role code.1.text) =
      [roleSubject role, (splitCode code.1.text).1, (splitCode code.1.text).2] := by
    have hne := (splitCode_known code).1
    simp [tokens, CasbinRule.values, grantRule, List.rdropWhile, hne]
  simp [loadRow, htokens, show (grantRule role code.1.text).ptype = "p" from rfl, subjectActive_role]

theorem loadRow_assign : loadRow statuses (assignRule userId role) =
    if roleActive statuses role = true then some ("g", [userSubject userId, roleSubject role]) else none := by
  have hne : roleSubject role ≠ "" := by
    intro h
    have := congrArg String.toList h
    simp [roleSubject, String.toList_append] at this
  have htokens : tokens (assignRule userId role) = [userSubject userId, roleSubject role] := by
    simp [tokens, CasbinRule.values, assignRule, List.rdropWhile, hne]
  have hnot : ¬['r', 'o', 'l', 'e', ':'] <+: (userSubject userId).toList := not_prefix_userSubject userId
  simp [loadRow, htokens, show (assignRule userId role).ptype = "g" from rfl, subjectActive_role, subjectActive_user,
    hnot]

theorem mem_policies (h : Stored table) {policy : List String} :
    policy ∈ (loadEnforcer table statuses).policies ↔ ∃ (role : String) (code : KnownCode),
      grantRule role code.1.text ∈ table ∧ roleActive statuses role = true ∧
        policy = [roleSubject role, (splitCode code.1.text).1, (splitCode code.1.text).2] := by
  simp only [loadEnforcer, List.mem_map, List.mem_filter, List.mem_filterMap, decide_eq_true_eq]
  constructor
  · rintro ⟨row, ⟨⟨rule, hrule, hload⟩, hp⟩, rfl⟩
    cases h rule hrule with
    | grant role code =>
      rw [loadRow_grant] at hload
      split at hload
      · next hactive =>
        cases hload
        exact ⟨role, code, hrule, hactive, rfl⟩
      · cases hload
    | assign userId role _ =>
      rw [loadRow_assign] at hload
      split at hload
      · cases hload
        simp at hp
      · cases hload
  · rintro ⟨role, code, hrule, hactive, rfl⟩
    exact ⟨_, ⟨⟨_, hrule, by rw [loadRow_grant, if_pos hactive]⟩, rfl⟩, rfl⟩

theorem mem_links (h : Stored table) {link : List String} :
    link ∈ (loadEnforcer table statuses).links ↔ ∃ (userId : ℕ) (role : String),
      assignRule userId role ∈ table ∧ roleActive statuses role = true ∧
        link = [userSubject userId, roleSubject role] := by
  simp only [loadEnforcer, List.mem_map, List.mem_filter, List.mem_filterMap, decide_eq_true_eq]
  constructor
  · rintro ⟨row, ⟨⟨rule, hrule, hload⟩, hg⟩, rfl⟩
    cases h rule hrule with
    | grant role code =>
      rw [loadRow_grant] at hload
      split at hload
      · cases hload
        simp at hg
      · cases hload
    | assign userId role _ =>
      rw [loadRow_assign] at hload
      split at hload
      · next hactive =>
        cases hload
        exact ⟨userId, role, hrule, hactive, rfl⟩
      · cases hload
  · rintro ⟨userId, role, hrule, hactive, rfl⟩
    exact ⟨_, ⟨⟨_, hrule, by rw [loadRow_assign, if_pos hactive]⟩, rfl⟩, rfl⟩

/-- Links lead from users to roles, so one step is all there is. -/
theorem linked_iff (h : Stored table) (n : ℕ) :
    (loadEnforcer table statuses).linked (n + 1) (userSubject userId) (roleSubject role) = true ↔
      assignRule userId role ∈ table ∧ roleActive statuses role = true := by
  have hrole : ∀ m r s, (loadEnforcer table statuses).linked m (roleSubject r) (roleSubject s) = true ↔ r = s := by
    intro m r s
    cases m with
    | zero => simpa [Enforcer.linked] using ⟨roleSubject_injective, congrArg roleSubject⟩
    | succ m =>
      simp only [Enforcer.linked, Bool.or_eq_true, beq_iff_eq, List.any_eq_true, Bool.and_eq_true]
      constructor
      · rintro (heq | ⟨link, hlink, hhead, -⟩)
        · exact roleSubject_injective heq
        · obtain ⟨id, t, -, -, rfl⟩ := (mem_links h).1 hlink
          exact absurd (Option.some.inj hhead) (userSubject_ne_roleSubject id r)
      · rintro rfl
        exact .inl rfl
  simp only [Enforcer.linked, Bool.or_eq_true, beq_iff_eq, List.any_eq_true, Bool.and_eq_true]
  constructor
  · rintro (heq | ⟨link, hlink, hhead, hnext⟩)
    · exact absurd heq (userSubject_ne_roleSubject userId role)
    · obtain ⟨id, r, hrule, hactive, rfl⟩ := (mem_links h).1 hlink
      obtain rfl := userSubject_injective (Option.some.inj hhead)
      obtain rfl := (hrole n r role).1 hnext
      exact ⟨hrule, hactive⟩
  · rintro ⟨hrule, hactive⟩
    exact .inr ⟨_, (mem_links h).2 ⟨userId, role, hrule, hactive, rfl⟩, rfl, (hrole n role role).2 rfl⟩

/-! ## The views -/

/-- What the decision and the listings come down to: an active role of the user has the code. -/
def GrantedBy (table : PolicyTable) (statuses : String → Option String) (userId : ℕ) (text : String) : Prop :=
  ∃ (role : String) (code : KnownCode), assignRule userId role ∈ table ∧ roleActive statuses role = true ∧
    grantRule role code.1.text ∈ table ∧ code.1.text = text

theorem can_iff (h : Stored table) (resource : Resource) (action : PermissionAction) :
    (loadEnforcer table statuses).can userId (PermissionCode.of resource action).text = true ↔
      GrantedBy table statuses userId (PermissionCode.of resource action).text ∨
        GrantedBy table statuses userId "*" := by
  have hcases : (loadEnforcer table statuses).can userId (PermissionCode.of resource action).text = true ↔
      ∃ (role : String) (code : KnownCode), assignRule userId role ∈ table ∧ roleActive statuses role = true ∧
        grantRule role code.1.text ∈ table ∧
          (code.1.text = (PermissionCode.of resource action).text ∨ code.1.text = "*") := by
    simp only [Enforcer.can, Enforcer.enforce, List.any_eq_true, splitCode_text]
    constructor
    · rintro ⟨policy, hpolicy, hmatch⟩
      obtain ⟨role, code, hrule, hactive, rfl⟩ := (mem_policies h).1 hpolicy
      simp only [Enforcer.matchesPolicy, Bool.and_assoc] at hmatch
      rw [Bool.and_eq_true, linked_iff h 9] at hmatch
      exact ⟨role, code, hmatch.1.1, hactive, hrule, (matches_iff code resource action).1 hmatch.2⟩
    · rintro ⟨role, code, hassign, hactive, hrule, hcode⟩
      refine ⟨_, (mem_policies h).2 ⟨role, code, hrule, hactive, rfl⟩, ?_⟩
      simp only [Enforcer.matchesPolicy, Bool.and_assoc]
      rw [Bool.and_eq_true, linked_iff h 9]
      exact ⟨⟨hassign, hactive⟩, (matches_iff code resource action).2 hcode⟩
  rw [hcases]
  constructor
  · rintro ⟨role, code, hassign, hactive, hrule, hcode | hcode⟩
    · exact .inl ⟨role, code, hassign, hactive, hrule, hcode⟩
    · exact .inr ⟨role, code, hassign, hactive, hrule, hcode⟩
  · rintro (⟨role, code, hassign, hactive, hrule, hcode⟩ | ⟨role, code, hassign, hactive, hrule, hcode⟩)
    · exact ⟨role, code, hassign, hactive, hrule, .inl hcode⟩
    · exact ⟨role, code, hassign, hactive, hrule, .inr hcode⟩

theorem mem_effectiveCodes (h : Stored table) (text : String) :
    text ∈ (loadEnforcer table statuses).effectiveCodes userId ↔ GrantedBy table statuses userId text := by
  simp only [Enforcer.effectiveCodes, List.mem_filterMap]
  constructor
  · rintro ⟨policy, hpolicy, htext⟩
    obtain ⟨role, code, hrule, hactive, rfl⟩ := (mem_policies h).1 hpolicy
    dsimp only at htext
    split at htext
    · next hlinked =>
      rw [linked_iff h 9] at hlinked
      rw [(splitCode_known code).2.1, Option.some.injEq] at htext
      exact ⟨role, code, hlinked.1, hactive, hrule, htext⟩
    · cases htext
  · rintro ⟨role, code, hassign, hactive, hrule, htext⟩
    refine ⟨_, (mem_policies h).2 ⟨role, code, hrule, hactive, rfl⟩, ?_⟩
    dsimp only
    rw [if_pos ((linked_iff h 9).2 ⟨hassign, hactive⟩), (splitCode_known code).2.1, htext]

theorem mem_sortedTexts {texts : List String} {text : String} : text ∈ sortedTexts texts ↔ text ∈ texts :=
  List.mem_mergeSort

theorem mem_assignedCodes (h : Stored table) : role ∈ table.userRoleCodes userId ↔ assignRule userId role ∈ table := by
  simp only [PolicyTable.userRoleCodes, mem_sortedTexts, List.mem_map, List.mem_filter, decide_eq_true_eq]
  constructor
  · rintro ⟨rule, ⟨hrule, hg, hsubject, -⟩, hrole⟩
    cases h rule hrule with
    | grant r code => exact absurd hg (by simp [grantRule])
    | assign id r hne =>
      obtain rfl := userSubject_injective hsubject
      have hcode : roleCodeOf (assignRule id r).v1 = some r := roleCodeOf_roleSubject r
      rw [hcode] at hrole
      split at hrole
      · next heq => cases heq
      · next heq => exact absurd (Option.some.inj heq) hne
      · next heq =>
        cases heq
        exact hrole ▸ hrule
  · intro hrule
    have hne : role ≠ "" := by
      generalize hr : assignRule userId role = rule at hrule
      cases h rule hrule with
      | grant r code => simp [grantRule, assignRule] at hr
      | assign id r hne =>
        have := congrArg CasbinRule.v1 hr
        exact roleSubject_injective this ▸ hne
    have hcode : roleCodeOf (assignRule userId role).v1 = some role := roleCodeOf_roleSubject role
    refine ⟨_, ⟨hrule, rfl, rfl, ?_⟩, ?_⟩
    · have hlist : (roleSubject role).toList = "role:".toList ++ role.toList := String.toList_append
      exact hlist ▸ List.prefix_append _ _
    · rw [hcode]
      split
      · next heq => cases heq
      · next heq => exact absurd (Option.some.inj heq) hne
      · next heq => exact (Option.some.inj heq).symm

theorem mem_grantedCodes (h : Stored table) {text : String} : text ∈ table.rolePermissionCodes role ↔
    ∃ code : KnownCode, grantRule role code.1.text ∈ table ∧ code.1.text = text := by
  simp only [PolicyTable.rolePermissionCodes, mem_sortedTexts, List.mem_map, List.mem_filter, decide_eq_true_eq]
  constructor
  · rintro ⟨rule, ⟨hrule, hp, hsubject⟩, htext⟩
    cases h rule hrule with
    | assign id r _ => exact absurd hp (by simp [assignRule])
    | grant r code =>
      obtain rfl := roleSubject_injective hsubject
      exact ⟨code, hrule, (splitCode_known code).2.1 ▸ htext⟩
  · rintro ⟨code, hrule, rfl⟩
    exact ⟨_, ⟨hrule, rfl, rfl⟩, (splitCode_known code).2.1⟩

theorem granted_iff_listed (h : Stored table) (text : String) : GrantedBy table statuses userId text ↔
    ∃ role ∈ table.userRoleCodes userId, roleActive statuses role = true ∧ text ∈ table.rolePermissionCodes role := by
  constructor
  · rintro ⟨role, code, hassign, hactive, hrule, htext⟩
    exact ⟨role, (mem_assignedCodes h).2 hassign, hactive, (mem_grantedCodes h).2 ⟨code, hrule, htext⟩⟩
  · rintro ⟨role, hrole, hactive, htext⟩
    obtain ⟨code, hrule, htext⟩ := (mem_grantedCodes h).1 htext
    exact ⟨role, code, (mem_assignedCodes h).1 hrole, hactive, hrule, htext⟩

/-- The codes of a role after they were set. -/
theorem rolePermissionCodes_set (codes : List KnownCode) :
    PolicyTable.rolePermissionCodes ((PolicyWrite.setRolePermissions role codes).apply table) role =
      sortedTexts (codes.map fun code => code.1.text).dedup := by
  have hold : ((table.filter fun rule => ¬(rule.ptype = "p" ∧ rule.v0 = roleSubject role)).filter fun rule =>
      rule.ptype = "p" ∧ rule.v0 = roleSubject role) = [] := by
    rw [List.filter_eq_nil_iff]
    intro rule hrule
    have hkept := (List.mem_filter.1 hrule).2
    simp only [decide_eq_true_eq] at hkept ⊢
    exact hkept
  have hnew : (((codes.map fun code => code.1.text).dedup.map (grantRule role)).filter fun rule =>
      rule.ptype = "p" ∧ rule.v0 = roleSubject role) =
        (codes.map fun code => code.1.text).dedup.map (grantRule role) := by
    rw [List.filter_eq_self]
    intro rule hrule
    obtain ⟨text, -, rfl⟩ := List.mem_map.1 hrule
    simp [grantRule]
  have hjoin : ((codes.map fun code => code.1.text).dedup.map (grantRule role)).map (fun rule =>
      joinCode rule.v1 rule.v2) = (codes.map fun code => code.1.text).dedup := by
    rw [List.map_map]
    refine (List.map_congr_left fun text htext => ?_).trans (List.map_id _)
    obtain ⟨code, -, rfl⟩ := List.mem_map.1 (List.mem_dedup.1 htext)
    exact (splitCode_known code).2.1
  rw [PolicyTable.rolePermissionCodes, PolicyWrite.apply, distinctTexts_known, List.filter_append, hold, hnew,
    List.nil_append, hjoin]

end

/-- **The views of the policy agree** on every table that the writes reach and for every assignment of role statuses: a
user may act on a code exactly if that code or the wildcard is among its effective codes, exactly if an active role that
is listed for it lists one of them; and the codes listed for a role after they were set are those. -/
theorem policy_views (writes : List PolicyWrite) (statuses : String → Option String) (userId : ℕ) (resource : Resource)
    (action : PermissionAction) :
    let table := run PolicyWrite.apply [] writes
    let e := loadEnforcer table statuses
    let code := (PermissionCode.of resource action).text
    (e.can userId code = true ↔ code ∈ e.effectiveCodes userId ∨ "*" ∈ e.effectiveCodes userId) ∧
    (e.can userId code = true ↔ ∃ role ∈ table.userRoleCodes userId, roleActive statuses role = true ∧
      (code ∈ table.rolePermissionCodes role ∨ "*" ∈ table.rolePermissionCodes role)) ∧
    ∀ (role : String) (codes : List KnownCode),
      PolicyTable.rolePermissionCodes ((PolicyWrite.setRolePermissions role codes).apply table) role =
        sortedTexts (codes.map fun code => code.1.text).dedup := by
  have h := stored_run writes
  refine ⟨?_, ?_, fun role codes => rolePermissionCodes_set codes⟩
  · rw [can_iff h, mem_effectiveCodes h, mem_effectiveCodes h]
  · rw [can_iff h, granted_iff_listed h, granted_iff_listed h, ← exists_or]
    refine exists_congr fun role => ?_
    rw [← and_or_left, ← and_or_left]

end LcsSystem
