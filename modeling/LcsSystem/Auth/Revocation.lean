import LcsSystem.Auth.Delegation

/-!
# Revoking codes from a role

`revoke_role_permissions` (`src/backend/app/modules/auth/service.py:1172-1191`) widens the listed codes by what each of
them compiles to, takes them all away and closes the rest again. The rest may grant a listed code again, or complete its
page; and a page that a listed code completes is taken away with it, whether or not the role holds the listed code.

| here          | there                                                     |
|---------------|-----------------------------------------------------------|
| `listedCodes` | the `value`s of the loop                                  |
| `revokedCodes` | `targets`                                                |
| `Regrants`    | what `compile_role_permissions` adds to what it is given   |
-/

namespace LcsSystem
open Grants Relational Checks

/-- The codes of the request, stripped. -/
def listedCodes (codes : Finset PermissionCode) : Finset PermissionCode := codes.image PermissionCode.stripped

/-- The code is not listed, no listed code grants it, and it grants none. -/
def Independent (listed : Finset PermissionCode) (code : PermissionCode) : Prop :=
  code ∉ listed ∧ ¬permissionGraph.Declares listed code ∧ ∀ c ∈ listed, ¬permissionGraph.Declares {code} c

instance (listed : Finset PermissionCode) (code : PermissionCode) : Decidable (Independent listed code) :=
  inferInstanceAs (Decidable (_ ∧ _))

/-- A revocation of the listed codes that takes effect, and takes nothing else: what a page that is still there grants
is kept, and so is what has nothing to do with the listed codes. -/
structure RevokesOnly (stored listed after : Finset PermissionCode) : Prop where
  effective : ∀ c ∈ listed, c ∉ after
  granted : ∀ p ∈ after, p.isPage = true → ∀ c ∈ grantsOf p, c ∈ stored → c ∈ after
  independent : ∀ c ∈ stored, Independent listed c → c ∈ after

instance (stored listed after : Finset PermissionCode) : Decidable (RevokesOnly stored listed after) :=
  decidable_of_iff ((∀ c ∈ listed, c ∉ after) ∧
    (∀ p ∈ after, p.isPage = true → ∀ c ∈ grantsOf p, c ∈ stored → c ∈ after) ∧
    ∀ c ∈ stored, Independent listed c → c ∈ after)
    ⟨fun h => ⟨h.1, h.2.1, h.2.2⟩, fun h => ⟨h.1, h.2, h.3⟩⟩

/-- The selection declares the code, or the code is a page that it completes. -/
def Regrants (selected : Finset PermissionCode) (code : PermissionCode) : Prop :=
  permissionGraph.Declares selected code ∨ Completes selected code

instance (selected : Finset PermissionCode) (code : PermissionCode) : Decidable (Regrants selected code) :=
  inferInstanceAs (Decidable (_ ∨ _))

/-- What remains of the role grants no listed code, and grants whatever else was taken away though it is independent. -/
structure CleanCut (stored listed revoked : Finset PermissionCode) : Prop where
  effective : ∀ c ∈ listed, ¬Regrants (chosen (stored \ revoked)) c
  independent : ∀ c ∈ stored ∩ revoked, Independent listed c → Regrants (chosen (stored \ revoked)) c

instance (stored listed revoked : Finset PermissionCode) : Decidable (CleanCut stored listed revoked) :=
  decidable_of_iff ((∀ c ∈ listed, ¬Regrants (chosen (stored \ revoked)) c) ∧
    ∀ c ∈ stored ∩ revoked, Independent listed c → Regrants (chosen (stored \ revoked)) c)
    ⟨fun h => ⟨h.1, h.2⟩, fun h => ⟨h.1, h.2⟩⟩

section
variable {S listed : Finset PermissionCode} {codes : Finset PermissionCode} {c p : PermissionCode}

/-! ## What a role holds after it is closed -/

theorem implied_iff_completes : p ∈ permissionGraph.implied (covered S) ↔ Completes S p := by
  constructor
  · intro h
    exact (completes_of_implied h).2
  · rintro ⟨hcovers, d, hd, hpage, hearlier⟩
    refine Graph.mem_implied_of_first ((mem_covered (isCode_of_granted p d hd)).2 (hcovers d hd)) hpage
      ((mem_pagesGranting p d).2 hd) (covers_covered.2 hcovers) fun q hq hcovered => ?_
    obtain ⟨x, hx, hnot⟩ := hearlier q hq
    exact hnot (covers_covered.1 hcovered x hx)

/-- A code that is not among those selected is stored exactly if the selection grants it again. -/
theorem mem_resolve_of_not_mem (h : AllCodes S) (hc : c ∉ S) : c ∈ resolveRoleCodes S ↔ Regrants (chosen S) c := by
  rw [mem_resolve_iff h, implied_iff_completes]
  exact or_iff_right fun hmem => hc (chosen_subset hmem)

/-- A page that is stored has all its codes along. -/
theorem covers_resolve (h : AllCodes S) (hp : p ∈ resolveRoleCodes S) (hpage : p.isPage = true) :
    ∀ x ∈ grantsOf p, x ∈ resolveRoleCodes S := by
  intro x hx
  rw [resolveRoleCodes_union h] at hp ⊢
  refine Finset.mem_union_left _ ?_
  rcases Finset.mem_union.1 hp with hp | hp
  · refine covered_covers hp ?_ x hx
    rintro rfl
    revert hpage
    decide
  · exact Graph.covers_of_implied hp x hx

/-! ## The revocation -/

theorem listed_subset_revoked : listedCodes codes ⊆ revokedCodes codes := by
  intro c hc
  obtain ⟨code, hcode, rfl⟩ := Finset.mem_image.1 hc
  exact Finset.mem_biUnion.2 ⟨code, hcode, Finset.mem_insert_self _ _⟩

theorem not_mem_remaining {stored : Finset PermissionCode} (hc : c ∈ revokedCodes codes) :
    c ∉ stored \ revokedCodes codes := fun h => (Finset.mem_sdiff.1 h).2 hc

/-- A selection of codes. -/
theorem revokesOnly_of_allCodes {stored : Finset PermissionCode} (h : AllCodes (stored \ revokedCodes codes)) :
    RevokesOnly stored (listedCodes codes) (resolveRoleCodes (stored \ revokedCodes codes)) ↔
      CleanCut stored (listedCodes codes) (revokedCodes codes) := by
  constructor
  · intro hr
    constructor
    · intro c hc
      rw [← mem_resolve_of_not_mem h (not_mem_remaining (listed_subset_revoked hc))]
      exact hr.effective c hc
    · intro c hc hind
      obtain ⟨hstored, hrevoked⟩ := Finset.mem_inter.1 hc
      rw [← mem_resolve_of_not_mem h (not_mem_remaining hrevoked)]
      exact hr.independent c hstored hind
  · intro hcut
    constructor
    · intro c hc
      rw [mem_resolve_of_not_mem h (not_mem_remaining (listed_subset_revoked hc))]
      exact hcut.effective c hc
    · exact fun p hp hpage x hx _ => covers_resolve h hp hpage x hx
    · intro c hstored hind
      by_cases hrevoked : c ∈ revokedCodes codes
      · rw [mem_resolve_of_not_mem h (not_mem_remaining hrevoked)]
        exact hcut.independent c (Finset.mem_inter.2 ⟨hstored, hrevoked⟩) hind
      · exact subset_resolve h (Finset.mem_sdiff.2 ⟨hstored, hrevoked⟩)

theorem not_regrants_wildcard : ¬Regrants (chosen {PermissionCode.wildcard}) c := by
  have hchosen : chosen {PermissionCode.wildcard} = {PermissionCode.wildcard} := by decide
  rw [hchosen]
  rintro (⟨a, ha, hx⟩ | ⟨hall, d, hd, -, -⟩)
  · obtain rfl := Finset.mem_singleton.1 ha
    rcases hx with hx | ⟨b, hb, -⟩
    · cases hx
    · cases hb
  · rcases hall d hd with hmem | ⟨a, ha, hx⟩
    · rw [Finset.mem_singleton] at hmem
      subst hmem
      cases isCode_of_granted c _ hd
    · obtain rfl := Finset.mem_singleton.1 ha
      rcases hx with hx | ⟨b, hb, -⟩
      · cases hx
      · cases hb

/-- The role of all permissions keeps its wildcard, unless that is listed. -/
theorem revokesOnly_wildcard (hnot : PermissionCode.wildcard ∉ revokedCodes codes) :
    RevokesOnly {.wildcard} (listedCodes codes) {.wildcard} ↔
      CleanCut {.wildcard} (listedCodes codes) (revokedCodes codes) := by
  have hrest : ({PermissionCode.wildcard} : Finset PermissionCode) \ revokedCodes codes = {.wildcard} := by
    rw [Finset.sdiff_eq_self_iff_disjoint, Finset.disjoint_singleton_left]
    exact hnot
  refine iff_of_true ⟨?_, ?_, fun c hc _ => hc⟩ ⟨fun c _ => ?_, ?_⟩
  · intro c hc hmem
    rw [Finset.mem_singleton] at hmem
    exact hnot (hmem ▸ listed_subset_revoked hc)
  · intro p hp hpage
    rw [Finset.mem_singleton] at hp
    subst hp
    cases hpage
  · rw [hrest]
    exact not_regrants_wildcard
  · intro c hc
    obtain ⟨hmem, hrevoked⟩ := Finset.mem_inter.1 hc
    rw [Finset.mem_singleton] at hmem
    exact absurd (hmem ▸ hrevoked) hnot

/-- **A revocation takes effect and only that** exactly when it is a clean cut, for a role whose stored codes are what
they resolve to. -/
theorem revokesOnly_iff {db db' : AuthDb} {context : Context} {roleId : ℕ} {role : Role}
    (h : revokeRolePermissions db context roleId codes = .ok db') (hrole : db.roles.get? roleId = some role)
    (hfixed : resolveRoleCodes (rolePermissionCodes db role.code) = rolePermissionCodes db role.code) :
    RevokesOnly (rolePermissionCodes db role.code) (listedCodes codes) (rolePermissionCodes db' role.code) ↔
      CleanCut (rolePermissionCodes db role.code) (listedCodes codes) (revokedCodes codes) := by
  simp only [revokeRolePermissions, lockedRole, hrole, bind_eq_ok, require_eq_ok, pure_eq_ok, Option.some.injEq] at h
  obtain ⟨_, ⟨_, rfl, _, -, rfl⟩, _, -, hsync⟩ := h
  obtain ⟨hknown, rfl⟩ := sync_spec hsync
  rw [rolePermissionCodes_setRolePermissions, if_pos rfl]
  generalize rolePermissionCodes db role.code = stored at hfixed hknown ⊢
  by_cases hstar : PermissionCode.wildcard ∈ stored \ revokedCodes codes
  · obtain ⟨hmem, hnot⟩ := Finset.mem_sdiff.1 hstar
    rw [resolve_wildcard hmem] at hfixed
    rw [resolve_wildcard hstar, ← hfixed]
    exact revokesOnly_wildcard hnot
  · exact revokesOnly_of_allCodes (allCodes_of_known hknown hstar)

end

/-! ## A clerk who keeps users -/

/-- One role with these codes, and nobody who has it. -/
def clerkWith (codes : Finset PermissionCode) : AuthDb where
  users := .empty
  roles := Table.empty.insert ⟨"CLERK", "Clerk", none, "ACTIVE"⟩
  policies := codes.image (.role "CLERK", ·)
  assignments := []

def platformAdmin : Context := ⟨1, true, fun _ => true⟩

/-- What the clerk has, and has after the codes are revoked. -/
def clerkCodes (codes : Finset PermissionCode) : Finset PermissionCode := rolePermissionCodes (clerkWith codes) "CLERK"
def revokeFromClerk (codes listed : Finset PermissionCode) : AuthResult (Finset PermissionCode) :=
  (revokeRolePermissions (clerkWith codes) platformAdmin 1 listed).map fun db => rolePermissionCodes db "CLERK"

def userPage (action : PermissionAction) : PermissionCode := .of .adminUsers action

/-- The pages that create and change users, with their capability. -/
def userPages : Finset PermissionCode := {userPage .create, userPage .update, .of .user .manage}

/-- Nothing but the codes of a report that the role also has. -/
theorem revokesOnly_report :
    ∃ db', revokeRolePermissions (clerkWith (insert (.of .reportsCashFlow .view) userPages)) platformAdmin 1
        {.of .reportsCashFlow .view} = .ok db' ∧
      RevokesOnly (clerkCodes (insert (.of .reportsCashFlow .view) userPages)) (listedCodes {.of .reportsCashFlow .view})
        (rolePermissionCodes db' "CLERK") := by
  obtain ⟨db', hrevoke⟩ := isOk_eq_true.1
    (show (revokeRolePermissions (clerkWith (insert (.of .reportsCashFlow .view) userPages)) platformAdmin 1
      {.of .reportsCashFlow .view}).isOk = true by decide +kernel)
  have hrole : (clerkWith (insert (.of .reportsCashFlow .view) userPages)).roles.get? 1 =
    some ⟨"CLERK", "Clerk", none, "ACTIVE"⟩ := rfl
  exact ⟨db', hrevoke, (revokesOnly_iff hrevoke hrole (by decide +kernel)).2 (by decide +kernel)⟩

/-- Without the page to create users, the page to change them completes it again; without the page to change them, the
page to create is lost. And a page that the role never had takes it away. -/
theorem revoked_page_returns :
    (∀ codes ∈ [userPages, {userPage .create, .of .user .manage}],
      resolveRoleCodes (clerkCodes codes) = clerkCodes codes) ∧
    (∃ after, revokeFromClerk userPages {userPage .create} = .ok after ∧ userPage .create ∈ after ∧
      ¬RevokesOnly (clerkCodes userPages) (listedCodes {userPage .create}) after) ∧
    (∃ after, revokeFromClerk userPages {userPage .update} = .ok after ∧ after = ∅ ∧
      ¬RevokesOnly (clerkCodes userPages) (listedCodes {userPage .update}) after) ∧
    (∃ after, revokeFromClerk {userPage .create, .of .user .manage} {userPage .delete} = .ok after ∧ after = ∅ ∧
      ¬RevokesOnly (clerkCodes {userPage .create, .of .user .manage}) (listedCodes {userPage .delete}) after) :=
  ⟨by decide +kernel, okAnd_eq_true.1 (by decide +kernel), okAnd_eq_true.1 (by decide +kernel),
    okAnd_eq_true.1 (by decide +kernel)⟩

end LcsSystem
