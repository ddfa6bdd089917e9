import LcsSystem.Core.PermissionGraph

/-!
# Compiling a selection twice

`compile_role_permissions` on the shipped tables: what it adds to a larger selection, and what a second compilation
adds to the first.
-/

namespace LcsSystem
open Grants

/-- The code is selected, or declared by the selection within two steps. -/
def Holds (codes : Finset PermissionCode) (code : PermissionCode) : Prop :=
  code ∈ codes ∨ permissionGraph.Declares codes code

instance (codes : Finset PermissionCode) (code : PermissionCode) : Decidable (Holds codes code) :=
  inferInstanceAs (Decidable (_ ∨ _))

/-- `granted` of the compilation. -/
def granted (codes : Finset PermissionCode) : Finset PermissionCode := codes.filter fun code => !code.isBlank

/-- `covered` of the compilation. -/
def covered (codes : Finset PermissionCode) : Finset PermissionCode := permissionGraph.reach (granted codes)

theorem compileRolePermissions_eq (codes : Finset PermissionCode) :
    compileRolePermissions codes = permissionGraph.close (granted codes) := by
  simp only [compileRolePermissions, Graph.close, Graph.implied, Graph.reach, Graph.declared, Graph.firstPage, granted,
    permissionGraph]
  rfl

section
variable {S T : Finset PermissionCode} {x p : PermissionCode}

theorem granted_mono (h : S ⊆ T) : granted S ⊆ granted T := Finset.filter_subset_filter _ h

theorem covered_mono (h : S ⊆ T) : covered S ⊆ covered T := Graph.reach_mono (granted_mono h)

theorem mem_covered (hx : x.isCode = true) : x ∈ covered S ↔ Holds S x := by
  have hgranted : ∀ a y, y ∈ grantsOf a → (a ∈ granted S ↔ a ∈ S) := by
    intro a y hy
    simp [granted, not_isBlank_of_isCode (isCode_of_grants hy)]
  simp only [covered, Graph.mem_reach, Holds, Graph.Declares]
  constructor
  · rintro (h | ⟨a, ha, h⟩)
    · exact .inl (Finset.mem_filter.1 h).1
    · exact .inr ⟨a, (Finset.mem_filter.1 ha).1, h⟩
  · rintro (h | ⟨a, ha, h⟩)
    · exact .inl (Finset.mem_filter.2 ⟨h, by simp [not_isBlank_of_isCode hx]⟩)
    · refine .inr ⟨a, ?_, h⟩
      rcases h with h | ⟨b, hb, -⟩
      · exact (hgranted a x h).2 ha
      · exact (hgranted a b hb).2 ha

theorem forall_mem_covered {l : List PermissionCode} (hl : ∀ x ∈ l, x.isCode = true) :
    (∀ x ∈ l, x ∈ covered S) ↔ ∀ x ∈ l, Holds S x :=
  forall₂_congr fun x hx => mem_covered (hl x hx)

theorem covers_covered : permissionGraph.Covers (covered S) p ↔ ∀ x ∈ grantsOf p, Holds S x :=
  forall_mem_covered (isCode_of_granted p)

/-! ## What a compilation contains -/

theorem isCode_of_implied {K : Finset PermissionCode} (h : p ∈ permissionGraph.implied K) : p.isCode = true := by
  obtain ⟨c, -, -, hfirst⟩ := Graph.mem_implied.1 h
  exact isCode_of_grants ((mem_pagesGranting p c).1 (Graph.firstPage_eq_some.1 hfirst).1)

theorem not_isBlank_of_mem_close (h : x ∈ permissionGraph.close (granted S)) : x.isBlank = false := by
  rcases Finset.mem_union.1 h with h | h
  · rcases Graph.mem_reach.1 h with h | ⟨a, -, h | ⟨b, -, -, h⟩⟩
    · simpa using (Finset.mem_filter.1 h).2
    · exact not_isBlank_of_isCode (isCode_of_granted a x h)
    · exact not_isBlank_of_isCode (isCode_of_granted b x h)
  · exact not_isBlank_of_isCode (isCode_of_implied h)

theorem granted_close : granted (permissionGraph.close (granted S)) = permissionGraph.close (granted S) := by
  refine Finset.filter_true_of_mem fun x hx => ?_
  simp [not_isBlank_of_mem_close hx]

theorem subset_compile_iff : S ⊆ compileRolePermissions S ↔ ∀ c ∈ S, c.isBlank = false := by
  rw [compileRolePermissions_eq]
  constructor
  · exact fun h c hc => not_isBlank_of_mem_close (h hc)
  · intro h c hc
    exact Graph.subset_close (Finset.mem_filter.2 ⟨hc, by simp [h c hc]⟩)

/-- A code that is no page is never implied. -/
theorem mem_covered_of_not_isPage (h : x ∈ compileRolePermissions S) (hx : x.isPage = false) : x ∈ covered S := by
  rw [compileRolePermissions_eq] at h
  rcases Finset.mem_union.1 h with h | h
  · exact h
  · obtain ⟨c, hcK, hc, hfirst⟩ := Graph.mem_implied.1 h
    rcases isPage_or_self x c ((mem_pagesGranting x c).1 (Graph.firstPage_eq_some.1 hfirst).1) hc with hpage | rfl
    · rw [hx] at hpage
      cases hpage
    · exact hcK

/-! ## Larger selections -/

/-- A shadowed page that `S` implies stays in the compilation of `T`. -/
def KeepsShadowed (S T : Finset PermissionCode) : Prop :=
  ∀ row ∈ shadowedPages, (∀ x ∈ grantsOf row.1, Holds S x) → (∀ x ∈ row.2, Holds T x) →
    (∀ x ∈ row.2, Holds S x) ∨ Holds T row.1

instance (S T : Finset PermissionCode) : Decidable (KeepsShadowed S T) :=
  inferInstanceAs (Decidable (∀ row ∈ shadowedPages, _))

theorem isCode_shadowed : ∀ row ∈ shadowedPages, row.1.isCode = true ∧ ∀ x ∈ row.2, x.isCode = true := by
  decide

theorem mem_implied_shadowed {row : PermissionCode × List PermissionCode} (hrow : row ∈ shadowedPages) :
    row.1 ∈ permissionGraph.implied (covered S) ↔ (∀ x ∈ grantsOf row.1, Holds S x) ∧ ¬∀ x ∈ row.2, Holds S x := by
  rw [(shadowed row hrow).mem_implied_iff mem_pagesGranting, covers_covered,
    ← forall_mem_covered (isCode_shadowed row hrow).2]
  simp only [not_forall, exists_prop]

theorem compile_mono_iff (hST : S ⊆ T) :
    compileRolePermissions S ⊆ compileRolePermissions T ↔ KeepsShadowed S T := by
  simp only [compileRolePermissions_eq]
  constructor
  · intro h row hrow hS hT
    by_cases hextra : ∀ x ∈ row.2, Holds S x
    · exact .inl hextra
    · have hp : row.1 ∈ permissionGraph.implied (covered S) := (mem_implied_shadowed hrow).2 ⟨hS, hextra⟩
      rcases Finset.mem_union.1 (h (Finset.mem_union_right _ hp)) with hK | hI
      · exact .inr ((mem_covered (isCode_shadowed row hrow).1).1 hK)
      · exact absurd hT ((mem_implied_shadowed hrow).1 hI).2
  · intro h p hp
    rcases Finset.mem_union.1 hp with hK | hI
    · exact Finset.mem_union_left _ (covered_mono hST hK)
    · by_cases hshadow : p ∈ shadowedPages.map Prod.fst
      · obtain ⟨row, hrow, rfl⟩ := List.mem_map.1 hshadow
        obtain ⟨hgrants, hextra⟩ := (mem_implied_shadowed hrow).1 hI
        by_cases hT : ∀ x ∈ row.2, Holds T x
        · have := (h row hrow hgrants hT).resolve_left hextra
          exact Finset.mem_union_left _ ((mem_covered (isCode_shadowed row hrow).1).2 this)
        · have hcovers := (covers_covered.2 hgrants).mono (covered_mono hST)
          exact Finset.mem_union_right _ ((mem_implied_shadowed hrow).2 ⟨covers_covered.1 hcovers, hT⟩)
      · refine Graph.implied_grows mem_pagesGranting (fun c hc hpage => ?_) (covered_mono hST) hI
        exact (free_or_shadowed p c hc hpage).resolve_left hshadow

/-! ## A second compilation -/

theorem earlier_configure : ∃ c ∈ grantsOf configure, c.isPage = false ∧
    ∀ q ∈ permissionGraph.earlier c configure, configure ∈ grantsOf q := by
  decide

/-- The page that a compilation with `configure` implies next. -/
def configurationUpdate : PermissionCode := .of .configuration .update

theorem configurationUpdate_first : ∃ c ∈ grantsOf configurationUpdate, c.isPage = false ∧
    permissionGraph.earlier c configurationUpdate = [] := by
  decide

theorem grants_configurationUpdate : ∀ x ∈ grantsOf configurationUpdate, x = configure ∨ x ∈ grantsOf configure := by
  decide

theorem covered_covers (hx : x ∈ covered S) (hne : x ≠ reportExport) : permissionGraph.Covers (covered S) x :=
  permissionGraph_twoStep.covers_reach hx hne

/-- A closed selection implies nothing more exactly if it does not imply `configuration.configure`. -/
theorem implied_close_subset_iff {C : Finset PermissionCode}
    (hC : C = covered S ∪ permissionGraph.implied (covered S)) :
    permissionGraph.implied C ⊆ C ↔ ((∀ x ∈ grantsOf configure, Holds S x) → Holds S configure) := by
  rw [← covers_covered, ← mem_covered (by rfl), hC]
  constructor
  · intro h hcovers
    by_contra hnot
    obtain ⟨c, hc, hcpage, hearlier⟩ := earlier_configure
    have hconfigure : configure ∈ permissionGraph.implied (covered S) := by
      refine Graph.mem_implied_of_first (hcovers c hc) hcpage ((mem_pagesGranting _ _).2 hc) hcovers fun q hq hq' => ?_
      exact hnot (hq' configure (hearlier q hq))
    obtain ⟨d, hd, hdpage, hnone⟩ := configurationUpdate_first
    have hall : permissionGraph.Covers (covered S ∪ permissionGraph.implied (covered S)) configurationUpdate := by
      intro x hx
      rcases grants_configurationUpdate x hx with rfl | hx
      · exact Finset.mem_union_right _ hconfigure
      · exact Finset.mem_union_left _ (hcovers x hx)
    have hpages := (mem_pagesGranting configurationUpdate d).2 hd
    have hupdate := h (Graph.mem_implied_of_first (hall d hd) hdpage hpages hall (by simp [hnone]))
    have hgrant : configure ∈ grantsOf configurationUpdate := by decide
    rcases Finset.mem_union.1 hupdate with hK | hI
    · exact hnot (covered_covers hK (by decide) configure hgrant)
    · exact hnot (Graph.covers_of_implied hI configure hgrant)
  · intro h
    refine Graph.implied_union_subset mem_pagesGranting isPage_or_self dominated_or_nested fun hI => ?_
    exact h (Graph.covers_of_implied hI)

theorem isPage_reports : ∀ x ∈ grantsOf reportExport, x.isPage = true ∧
    ∀ c ∈ grantsOf x, c = reportExport := by
  decide

def dashboardExport : PermissionCode := .of .dashboard .exports

theorem pages_of_reportExport : reportExport ∈ grantsOf dashboardExport ∧
    permissionGraph.earlier reportExport dashboardExport = [] ∧ dashboardExport ∉ grantsOf reportExport ∧
    grantsOf dashboardExport = [reportExport] := by
  decide

/-- Only the export of the dashboard is implied by `report.export`. -/
theorem report_not_implied {K : Finset PermissionCode} (hx : x ∈ grantsOf reportExport) :
    x ∉ permissionGraph.implied K := by
  intro h
  obtain ⟨c, hcK, hc, hfirst⟩ := Graph.mem_implied.1 h
  obtain ⟨hpages, hcovers, hearlier⟩ := Graph.firstPage_eq_some.1 hfirst
  obtain rfl := (isPage_reports x hx).2 c ((mem_pagesGranting x c).1 hpages)
  obtain ⟨hgrant, hnone, hnot, hone⟩ := pages_of_reportExport
  have hdash : permissionGraph.firstPage K reportExport = some dashboardExport := by
    refine Graph.firstPage_eq_some.2 ⟨(mem_pagesGranting _ _).2 hgrant, ?_, by simp [hnone]⟩
    intro y hy
    have : y ∈ grantsOf dashboardExport := hy
    rw [hone, List.mem_singleton] at this
    exact this ▸ hcK
  rw [hfirst, Option.some.injEq] at hdash
  exact hnot (hdash ▸ hx)

/-- Compiling the compilation reaches nothing new exactly if `report.export` brings its reports along. -/
theorem reach_close_subset_iff {C : Finset PermissionCode}
    (hC : C = covered S ∪ permissionGraph.implied (covered S)) :
    permissionGraph.reach C ⊆ C ↔ (Holds S reportExport → ∀ x ∈ grantsOf reportExport, Holds S x) := by
  rw [← covers_covered, ← mem_covered (by rfl)]
  constructor
  · intro h hreport x hx
    have hmem : x ∈ C := h (Graph.mem_reach.2 (.inr ⟨reportExport, by simp [hC, hreport], .inl hx⟩))
    rw [hC] at hmem
    exact (Finset.mem_union.1 hmem).resolve_right (report_not_implied hx)
  · intro h
    have hcovers : ∀ a ∈ C, permissionGraph.Covers C a := by
      intro a ha
      have hK : permissionGraph.Covers (covered S) a := by
        rw [hC] at ha
        rcases Finset.mem_union.1 ha with hK | hI
        · by_cases he : a = reportExport
          · subst he
            exact h hK
          · exact covered_covers hK he
        · exact Graph.covers_of_implied hI
      exact hK.mono (hC ▸ Finset.subset_union_left)
    exact Graph.reach_subset subset_rfl hcovers fun a ha b hb _ => hcovers b (hcovers a ha b hb)

theorem compile_compile_iff : compileRolePermissions (compileRolePermissions S) = compileRolePermissions S ↔
    (Holds S reportExport → ∀ x ∈ grantsOf reportExport, Holds S x) ∧
      ((∀ x ∈ grantsOf configure, Holds S x) → Holds S configure) := by
  rw [compileRolePermissions_eq (compileRolePermissions S), compileRolePermissions_eq S, granted_close]
  obtain ⟨C, hC⟩ : ∃ C, C = permissionGraph.close (granted S) := ⟨_, rfl⟩
  rw [← hC, ← reach_close_subset_iff hC, ← implied_close_subset_iff hC]
  constructor
  · intro h
    have hreach : permissionGraph.reach C ⊆ C := by
      intro x hx
      rw [← h]
      exact Graph.reach_subset_close hx
    refine ⟨hreach, fun x hx => ?_⟩
    rw [← h]
    refine Finset.mem_union_right _ ?_
    rwa [Finset.Subset.antisymm hreach Graph.subset_reach]
  · rintro ⟨hreach, himplied⟩
    have heq := Finset.Subset.antisymm hreach Graph.subset_reach
    rw [Graph.close, heq]
    exact Finset.union_eq_left.2 himplied

/-- **When a compilation is a closure**: it contains the selection if no text of it is blank, it grows with the
selection if every shadowed page stays, and it is final if the selection has all reports along with `report.export`, and
the page `configuration.configure` along with the codes of that page. -/
theorem compile_closure_iff (S T : Finset PermissionCode) :
    (S ⊆ compileRolePermissions S ∧ (S ⊆ T → compileRolePermissions S ⊆ compileRolePermissions T) ∧
        compileRolePermissions (compileRolePermissions S) = compileRolePermissions S) ↔
      (∀ c ∈ S, c.isBlank = false) ∧ (S ⊆ T → KeepsShadowed S T) ∧
        (Holds S reportExport → ∀ x ∈ grantsOf reportExport, Holds S x) ∧
        ((∀ x ∈ grantsOf configure, Holds S x) → Holds S configure) := by
  rw [subset_compile_iff, compile_compile_iff]
  refine and_congr_right' (and_congr_left' ?_)
  exact forall_congr' fun h => compile_mono_iff h

/-- The export of the dashboard is compiled to the exports of all reports, at the second time, and a quotation that is
submitted loses the page that sends it. -/
theorem compile_no_closure :
    (compileRolePermissions (compileRolePermissions {.of .dashboard .exports}) ≠
      compileRolePermissions {.of .dashboard .exports}) ∧
    ¬compileRolePermissions {.of .quotation .send} ⊆
      compileRolePermissions {.of .quotation .send, .of .quotation .submit} := by
  decide

end
end LcsSystem
