import LcsSystem.Core.Permissions

/-!
# What the tables of the permission graph grant

The facts about `PAGE_PERMISSION_GRANTS` that the closure rests on, each checked over all keys of the table. Codes that
are no key grant nothing, so they hold of every code.
-/

namespace LcsSystem
open Grants

/-- The keys of the table. -/
def grantKeys : List PermissionCode :=
  grantOrder.flatMap fun resource => (pageGrants resource).map fun row => .of resource row.1

theorem pageGrants_eq_nil {resource : Resource} : resource ∉ grantOrder → pageGrants resource = [] := by
  cases resource <;> decide

theorem lookup_pageGrants : ∀ resource ∈ grantOrder, ∀ row ∈ pageGrants resource,
    (pageGrants resource).lookup row.1 = some row.2 := by
  decide

theorem mem_of_lookup {l : List (PermissionAction × List PermissionCode)} {action : PermissionAction}
    {codes : List PermissionCode} (h : l.lookup action = some codes) : (action, codes) ∈ l := by
  induction l with
  | nil => cases h
  | cons row l ih =>
    rw [List.lookup_cons] at h
    split at h
    · next heq =>
      obtain rfl : action = row.1 := by simpa using heq
      cases h
      exact List.mem_cons_self
    · exact List.mem_cons_of_mem _ (ih h)

/-- A code that grants something is a row of the table. -/
theorem row_of_mem_grantsOf {p c : PermissionCode} (h : c ∈ grantsOf p) :
    ∃ resource ∈ grantOrder, ∃ row ∈ pageGrants resource, p = .of resource row.1 ∧
      grantsOf p = row.2 ++ fileCapability resource row.1 := by
  cases p with
  | wildcard => cases h
  | other text => cases h
  | of resource action =>
    cases hrow : (pageGrants resource).lookup action with
    | none =>
      simp only [grantsOf, hrow] at h
      cases h
    | some codes =>
      have hmem := mem_of_lookup hrow
      refine ⟨resource, ?_, _, hmem, rfl, by simp only [grantsOf, hrow]⟩
      by_contra hnot
      rw [pageGrants_eq_nil hnot] at hmem
      cases hmem

theorem mem_grantKeys {p c : PermissionCode} (h : c ∈ grantsOf p) : p ∈ grantKeys := by
  obtain ⟨resource, hr, row, hrow, rfl, -⟩ := row_of_mem_grantsOf h
  exact List.mem_flatMap.2 ⟨resource, hr, List.mem_map.2 ⟨row, hrow, rfl⟩⟩

theorem mem_pagesGranting (p c : PermissionCode) : p ∈ permissionGraph.pagesOf c ↔ c ∈ permissionGraph.grants p := by
  simp only [permissionGraph, pagesGranting, pagesGrantingIn, List.mem_flatMap, List.mem_map, List.mem_filter,
    List.contains_iff_mem]
  constructor
  · rintro ⟨resource, hr, row, ⟨hrow, hc⟩, rfl⟩
    simp only [grantsOf, lookup_pageGrants resource hr row hrow]
    exact hc
  · intro h
    obtain ⟨resource, hr, row, hrow, rfl, hg⟩ := row_of_mem_grantsOf h
    rw [hg] at h
    exact ⟨resource, hr, row, ⟨hrow, h⟩, rfl⟩

/-- A fact that is checked of the keys and of what they grant holds of all codes. -/
theorem forall_grants {P : PermissionCode → PermissionCode → Prop} (h : ∀ p ∈ grantKeys, ∀ c ∈ grantsOf p, P p c)
    (p c : PermissionCode) (hc : c ∈ grantsOf p) : P p c :=
  h p (mem_grantKeys hc) c hc

/-! ## The rows of the table -/

def PermissionCode.isCode : PermissionCode → Bool
  | .of _ _ => true
  | _ => false

theorem isCode_of_granted : ∀ p c : PermissionCode, c ∈ grantsOf p → c.isCode = true :=
  forall_grants (P := fun _ c => c.isCode = true) (by decide +kernel)

theorem isCode_of_grants {p c : PermissionCode} (h : c ∈ grantsOf p) : p.isCode = true := by
  obtain ⟨resource, -, row, -, rfl, -⟩ := row_of_mem_grantsOf h
  rfl

theorem not_isBlank_of_isCode {c : PermissionCode} (h : c.isCode = true) : c.isBlank = false := by
  cases c with
  | of resource action => rfl
  | wildcard => cases h
  | other text => cases h

def reportExport : PermissionCode := .of .report .exports
def configure : PermissionCode := .of .configuration .configure

theorem twoStep_ofPage : ∀ a ∈ grantKeys, ∀ b ∈ grantsOf a, b.isPage = true → ∀ x ∈ grantsOf b, x.isPage = true →
    ∀ y ∈ grantsOf x, y ∈ grantsOf a ∨ y ∈ grantsOf b := by
  decide +kernel

theorem twoStep_ofCode : ∀ a ∈ grantKeys, ∀ x ∈ grantsOf a, x.isPage = false →
    x = reportExport ∨ ∀ y ∈ grantsOf x, y = a ∨ y ∈ grantsOf a := by
  decide +kernel

theorem permissionGraph_twoStep : permissionGraph.TwoStep reportExport where
  ofPage := forall_grants twoStep_ofPage
  ofCode := forall_grants twoStep_ofCode

theorem isPage_or_self : ∀ p c : PermissionCode, c ∈ grantsOf p → c.isPage = false → p.isPage = true ∨ p = c :=
  forall_grants (P := fun p c => c.isPage = false → p.isPage = true ∨ p = c) (by decide +kernel)

theorem dominated_or_nested : ∀ p c : PermissionCode, c ∈ grantsOf p → c.isPage = false →
    permissionGraph.Dominated c p ∨
      ∀ x ∈ grantsOf p, x.isPage = true → x = configure ∨ ∀ y ∈ grantsOf x, y.isPage = true :=
  forall_grants (P := fun p c => c.isPage = false → permissionGraph.Dominated c p ∨
    ∀ x ∈ grantsOf p, x.isPage = true → x = configure ∨ ∀ y ∈ grantsOf x, y.isPage = true) (by decide +kernel)

/-- Pages that another page takes the place of, with the codes that it takes. -/
def shadowedPages : List (PermissionCode × List PermissionCode) := [
  (.of .salesQuotations .quotation, [.of .quotation .submit]),
  (.of .financeFinancialDocuments .view, [.of .serviceCharge .read]),
  (.of .financeFinancialDocuments .create, [.of .serviceCharge .create]),
  (.of .financeFinancialDocuments .update,
    [.of .serviceCharge .update, .of .serviceCharge .convertToInvoice, .of .serviceCharge .submit,
     .of .serviceCharge .issue, .of .financialDocument .submit, .of .financialDocument .post]),
  (.of .financeFinancialDocuments .delete, [.of .serviceCharge .delete]),
  (.of .financeFinancialDocuments .submit,
    [.of .serviceCharge .submit, .of .serviceCharge .issue, .of .financialDocument .reverse])]

instance (p : PermissionCode) (extra : List PermissionCode) : Decidable (permissionGraph.Shadowed p extra) :=
  decidable_of_iff ((∀ c ∈ grantsOf p, c.isPage = false →
      ∃ q ∈ permissionGraph.earlier c p, ∀ x ∈ grantsOf q, x ∈ grantsOf p ∨ x ∈ extra) ∧
    ∀ x ∈ extra, ∃ c ∈ grantsOf p, c.isPage = false ∧ ∀ q ∈ permissionGraph.earlier c p, x ∈ grantsOf q)
    ⟨fun h => ⟨h.1, h.2⟩, fun h => ⟨h.1, h.2⟩⟩

theorem shadowed : ∀ row ∈ shadowedPages, permissionGraph.Shadowed row.1 row.2 := by
  decide

theorem free_or_shadowed : ∀ p c : PermissionCode, c ∈ grantsOf p → c.isPage = false →
    p ∈ shadowedPages.map Prod.fst ∨ permissionGraph.Dominated c p ∨
      (∃ d ∈ grantsOf p, d.isPage = false ∧ permissionGraph.earlier d p = []) ∨
      ∀ q ∈ permissionGraph.earlier c p, p ∈ grantsOf q :=
  forall_grants (P := fun p c => c.isPage = false → p ∈ shadowedPages.map Prod.fst ∨ permissionGraph.Dominated c p ∨
    (∃ d ∈ grantsOf p, d.isPage = false ∧ permissionGraph.earlier d p = []) ∨
    ∀ q ∈ permissionGraph.earlier c p, p ∈ grantsOf q) (by decide +kernel)

end LcsSystem
