import LcsSystem.Core.RoleClosure

/-!
# Saving the selection of a role

`resolve_role_codes` drops the codes that the selected pages grant, compiles what is left, and the matrix then shows the
pages of the result. A second save and the matrix are compared with the first selection.
-/

namespace LcsSystem
open Grants

/-- What `resolve_role_codes` compiles: the selected pages and the codes that none of them grants. -/
def chosen (codes : Finset PermissionCode) : Finset PermissionCode :=
  let pageCodes := codes.filter fun code => code.isPage
  pageCodes ∪ ((codes \ pageCodes) \ pageCodes.biUnion fun page => (grantsOf page).toFinset)

section
variable {S : Finset PermissionCode} {x p : PermissionCode}

theorem mem_chosen : x ∈ chosen S ↔ x ∈ S ∧ (x.isPage = true ∨ ∀ q ∈ S, q.isPage = true → x ∉ grantsOf q) := by
  simp only [chosen, Finset.mem_union, Finset.mem_filter, Finset.mem_sdiff, Finset.mem_biUnion, List.mem_toFinset]
  constructor
  · rintro (⟨h, hp⟩ | ⟨⟨h, -⟩, hnot⟩)
    · exact ⟨h, .inl hp⟩
    · exact ⟨h, .inr fun q hq hpage hx => hnot ⟨q, ⟨hq, hpage⟩, hx⟩⟩
  · rintro ⟨h, hcase⟩
    by_cases hp : x.isPage = true
    · exact .inl ⟨h, hp⟩
    · refine .inr ⟨⟨h, fun h => hp h.2⟩, ?_⟩
      rintro ⟨q, ⟨hq, hpage⟩, hx⟩
      exact hcase.resolve_left hp q hq hpage hx

theorem chosen_subset : chosen S ⊆ S := fun _ h => (mem_chosen.1 h).1

/-! ## A selection of codes -/

/-- No blank text and no wildcard, nothing to strip. -/
def AllCodes (codes : Finset PermissionCode) : Prop := ∀ c ∈ codes, c.isCode = true

theorem isCode_of_inCatalog (h : x.inCatalog = true) : x.isCode = true := by
  cases x with
  | of resource action => rfl
  | wildcard => cases h
  | other text => cases h

theorem isPage_of_isMatrix (h : x.isMatrix = true) : x.isPage = true := by
  cases x with
  | wildcard => cases h
  | other text => cases h
  | of resource action =>
    have : action ∈ matrixActions resource := by simpa [PermissionCode.isMatrix] using h
    simp [PermissionCode.isPage, this]

theorem isCode_of_isPage (h : x.isPage = true) : x.isCode = true := by
  cases x with
  | of resource action => rfl
  | wildcard => cases h
  | other text => cases h

theorem granted_eq (h : AllCodes S) : granted S = S :=
  Finset.filter_true_of_mem fun c hc => by simp [not_isBlank_of_isCode (h c hc)]

theorem stripped_eq (h : x.isCode = true) : x.stripped = x := by
  cases x with
  | of resource action => rfl
  | wildcard => rfl
  | other text => cases h

theorem AllCodes.chosen (h : AllCodes S) : AllCodes (chosen S) := fun c hc => h c (chosen_subset hc)

theorem resolveRoleCodes_eq (h : AllCodes S) : resolveRoleCodes S = compileRolePermissions (chosen S) := by
  have hfilter : (S.filter fun code => !code.isBlank) = S := granted_eq h
  have himage : S.image PermissionCode.stripped = S := by
    rw [Finset.image_congr fun c hc => stripped_eq (h c hc), Finset.image_id']
  have hstar : PermissionCode.wildcard ∉ S := fun hmem => by cases h _ hmem
  simp only [resolveRoleCodes, hfilter, himage, hstar, if_false, chosen]

/-- The codes of a role: what the choice reaches and the pages that it implies. -/
theorem resolveRoleCodes_union (h : AllCodes S) :
    resolveRoleCodes S = covered (chosen S) ∪ permissionGraph.implied (covered (chosen S)) := by
  rw [resolveRoleCodes_eq h, compileRolePermissions_eq]
  rfl

theorem AllCodes.covered (h : AllCodes S) : AllCodes (covered S) := by
  intro c hc
  rcases Graph.mem_reach.1 hc with hc | ⟨a, -, hc | ⟨b, -, -, hc⟩⟩
  · exact h c (Finset.mem_filter.1 hc).1
  · exact isCode_of_granted a c hc
  · exact isCode_of_granted b c hc

theorem AllCodes.resolve (h : AllCodes S) : AllCodes (resolveRoleCodes S) := by
  rw [resolveRoleCodes_union h]
  intro c hc
  rcases Finset.mem_union.1 hc with hc | hc
  · exact h.chosen.covered c hc
  · exact isCode_of_implied hc

/-! ## A second save -/

theorem dashboardExport_of_report (h : AllCodes S) (hr : reportExport ∈ resolveRoleCodes S) :
    dashboardExport ∈ resolveRoleCodes S := by
  have hK : reportExport ∈ covered (chosen S) := by
    rw [resolveRoleCodes_eq h] at hr
    exact mem_covered_of_not_isPage hr rfl
  obtain ⟨hgrant, hnone, -, hone⟩ := pages_of_reportExport
  rw [resolveRoleCodes_union h]
  refine Finset.mem_union_right _ (Graph.mem_implied_of_first hK rfl ((mem_pagesGranting _ _).2 hgrant) ?_ (by simp [hnone]))
  intro y hy
  have : y ∈ grantsOf dashboardExport := hy
  rw [hone, List.mem_singleton] at this
  exact this ▸ hK

/-- What a role holds covers itself, as far as a second save selects it. -/
theorem reportExport_not_chosen (h : AllCodes S) : reportExport ∉ chosen (resolveRoleCodes S) := by
  intro hr
  obtain ⟨hmem, hcase⟩ := mem_chosen.1 hr
  have hpage : dashboardExport.isPage = true := by decide
  exact hcase.resolve_left (by decide) _ (dashboardExport_of_report h hmem) hpage pages_of_reportExport.1

theorem covers_resolved (h : AllCodes S) (hx : x ∈ resolveRoleCodes S) (hne : x ≠ reportExport) :
    permissionGraph.Covers (covered (chosen S)) x := by
  rw [resolveRoleCodes_union h] at hx
  rcases Finset.mem_union.1 hx with hK | hI
  · exact covered_covers hK hne
  · exact Graph.covers_of_implied hI

/-- A second save reaches what the first one stored. -/
theorem covered_chosen_resolve (h : AllCodes S) : covered (chosen (resolveRoleCodes S)) = resolveRoleCodes S := by
  have hK : covered (chosen S) ⊆ resolveRoleCodes S := by
    rw [resolveRoleCodes_union h]
    exact Finset.subset_union_left
  rw [covered, granted_eq h.resolve.chosen]
  refine Finset.Subset.antisymm (Graph.reach_subset chosen_subset ?_ ?_) fun x hx => ?_
  · intro a ha
    have hne : a ≠ reportExport := by
      rintro rfl
      exact reportExport_not_chosen h ha
    exact (covers_resolved h (chosen_subset ha) hne).mono hK
  · intro a ha b hb hpage
    have hne : a ≠ reportExport := by
      rintro rfl
      exact reportExport_not_chosen h ha
    have hbK := covers_resolved h (chosen_subset ha) hne b hb
    refine (covered_covers hbK ?_).mono hK
    rintro rfl
    cases hpage
  · by_cases hchosen : x ∈ chosen (resolveRoleCodes S)
    · exact Graph.subset_reach hchosen
    · have hdropped : ¬(x.isPage = true ∨ ∀ q ∈ resolveRoleCodes S, q.isPage = true → x ∉ grantsOf q) :=
        fun hcase => hchosen (mem_chosen.2 ⟨hx, hcase⟩)
      push Not at hdropped
      obtain ⟨-, q, hq, hpage, hxq⟩ := hdropped
      exact Graph.mem_reach.2 (.inr ⟨q, mem_chosen.2 ⟨hq, .inl hpage⟩, .inl hxq⟩)

theorem configure_declared_by_pages : ∀ a ∈ grantKeys, ∀ b ∈ grantsOf a, a.isPage = false →
    (b ∉ configure :: grantsOf configure) ∧
      (b.isPage = true → ∀ y ∈ grantsOf b, y ∉ configure :: grantsOf configure) := by
  decide +kernel

/-- The choice holds what the selection holds of the configuration page. -/
theorem holds_chosen (hx : x ∈ configure :: grantsOf configure) : Holds (chosen S) x ↔ Holds S x := by
  constructor
  · rintro (h | ⟨a, ha, h⟩)
    · exact .inl (chosen_subset h)
    · exact .inr ⟨a, chosen_subset ha, h⟩
  · rintro (h | ⟨a, ha, h⟩)
    · by_cases hchosen : x ∈ chosen S
      · exact .inl hchosen
      · have hdropped : ¬(x.isPage = true ∨ ∀ q ∈ S, q.isPage = true → x ∉ grantsOf q) :=
          fun hcase => hchosen (mem_chosen.2 ⟨h, hcase⟩)
        push Not at hdropped
        obtain ⟨-, q, hq, hpage, hxq⟩ := hdropped
        exact .inr ⟨q, mem_chosen.2 ⟨hq, .inl hpage⟩, .inl hxq⟩
    · refine .inr ⟨a, mem_chosen.2 ⟨ha, .inl ?_⟩, h⟩
      by_contra hnot
      have hpage : a.isPage = false := by simpa using hnot
      rcases h with h | ⟨b, hb, hbpage, h⟩
      · exact (configure_declared_by_pages a (mem_grantKeys h) x h hpage).1 hx
      · exact (configure_declared_by_pages a (mem_grantKeys hb) b hb hpage).2 hbpage x h hx

theorem resolve_resolve_iff (h : AllCodes S) : resolveRoleCodes (resolveRoleCodes S) = resolveRoleCodes S ↔
    ((∀ x ∈ grantsOf configure, Holds S x) → Holds S configure) := by
  rw [resolveRoleCodes_union h.resolve, covered_chosen_resolve h, Finset.union_eq_left,
    implied_close_subset_iff (resolveRoleCodes_union h), holds_chosen List.mem_cons_self]
  exact imp_congr (forall₂_congr fun x hx => holds_chosen (List.mem_cons_of_mem _ hx)) Iff.rfl

/-! ## The matrix -/

/-- The page of the matrix that ticking a page brings along. -/
def companion : PermissionCode → Option PermissionCode
  | .of _ .exports => some dashboardExport
  | .of .configuration .update => some (.of .configuration .view)
  | .of .adminUsers .update | .of .adminUsers .delete => some (.of .adminUsers .create)
  | .of .adminRoles .update | .of .adminRoles .delete => some (.of .adminRoles .create)
  | .of .settingsBackup .update => some (.of .settingsBackup .create)
  | _ => none

theorem matrix_mem_grantKeys : ∀ resource, ∀ action ∈ matrixActions resource,
    PermissionCode.of resource action ∈ grantKeys := by
  intro resource
  cases resource <;> decide

theorem mem_grantKeys_of_isMatrix (h : x.isMatrix = true) : x ∈ grantKeys := by
  cases x with
  | wildcard => cases h
  | other text => cases h
  | of resource action => exact matrix_mem_grantKeys resource action (by simpa [PermissionCode.isMatrix] using h)

/-- The codes that a code declares within two steps. -/
def declaredBy (code : PermissionCode) : List PermissionCode :=
  grantsOf code ++ ((grantsOf code).filter fun page => page.isPage).flatMap grantsOf

theorem mem_declaredBy {a : PermissionCode} :
    x ∈ declaredBy a ↔ x ∈ grantsOf a ∨ ∃ b ∈ grantsOf a, b.isPage = true ∧ x ∈ grantsOf b := by
  simp only [declaredBy, List.mem_append, List.mem_flatMap, List.mem_filter, and_assoc]

def matrixKeys : List PermissionCode := grantKeys.filter fun code => code.isMatrix

theorem mem_matrixKeys (h : x.isMatrix = true) : x ∈ matrixKeys :=
  List.mem_filter.2 ⟨mem_grantKeys_of_isMatrix h, h⟩

/-- No page of the matrix declares another one. -/
theorem not_isMatrix_of_declared : ∀ a ∈ matrixKeys, ∀ x ∈ declaredBy a, x.isMatrix = false := by
  decide +kernel

theorem companion_covered : ∀ a ∈ matrixKeys, ∀ p ∈ companion a, p.isMatrix = true ∧
    (∃ c ∈ grantsOf p, c.isPage = false ∧ permissionGraph.earlier c p = []) ∧ ∀ x ∈ grantsOf p, x ∈ declaredBy a := by
  decide +kernel

/-- Of the pages that declare what an implied page grants, all but its companions come before it. -/
theorem implied_by_companion : ∀ p ∈ matrixKeys, ∀ c ∈ grantsOf p, c.isPage = false →
    permissionGraph.Dominated c p ∨ ∃ d ∈ grantsOf p, ∀ a ∈ matrixKeys, d ∈ declaredBy a →
      a = p ∨ companion a = some p ∨ a ∈ permissionGraph.earlier c p := by
  decide +kernel

/-- Ticking pages of the matrix stores no other one exactly if each comes with its companion. -/
theorem matrix_resolve_iff {T : Finset PermissionCode} (hT : ∀ c ∈ T, c.isMatrix = true) :
    ((resolveRoleCodes T).filter fun c => c.isMatrix) =
        T ∪ ((T.biUnion fun c => (grantsOf c).toFinset).filter fun c => c.isMatrix) ↔
      ∀ a ∈ T, ∀ p ∈ companion a, p ∈ T := by
  have hall : AllCodes T := fun c hc => isCode_of_isPage (isPage_of_isMatrix (hT c hc))
  have hchosen : chosen T = T := Finset.Subset.antisymm chosen_subset fun c hc =>
    mem_chosen.2 ⟨hc, .inl (isPage_of_isMatrix (hT c hc))⟩
  have hkeys : ∀ a ∈ T, a ∈ matrixKeys := fun a ha => mem_matrixKeys (hT a ha)
  have hnone : ∀ a ∈ T, ∀ x ∈ declaredBy a, x.isMatrix ≠ true := by
    intro a ha x hx
    simp [not_isMatrix_of_declared a (hkeys a ha) x hx]
  have hdeclared : (T.biUnion fun c => (grantsOf c).toFinset).filter (fun c => c.isMatrix) = ∅ := by
    refine Finset.filter_false_of_mem fun x hx => ?_
    obtain ⟨a, ha, hxa⟩ := Finset.mem_biUnion.1 hx
    exact hnone a ha x (mem_declaredBy.2 (.inl (List.mem_toFinset.1 hxa)))
  have hcovered : ∀ x, x.isCode = true → (x ∈ covered T ↔ x ∈ T ∨ ∃ a ∈ T, x ∈ declaredBy a) := by
    intro x hx
    simp only [mem_covered hx, Holds, Graph.Declares, mem_declaredBy]
    rfl
  rw [hdeclared, Finset.union_empty, resolveRoleCodes_union hall, hchosen]
  constructor
  · intro h a ha p hp
    obtain ⟨hm, ⟨c, hc, hpage, hfirst⟩, hgrants⟩ := companion_covered a (hkeys a ha) p hp
    have hcovers : permissionGraph.Covers (covered T) p := fun x hx =>
      (hcovered x (isCode_of_granted p x hx)).2 (.inr ⟨a, ha, hgrants x hx⟩)
    have hpages := (mem_pagesGranting p c).2 hc
    have himplied := Graph.mem_implied_of_first (hcovers c hc) hpage hpages hcovers (by simp [hfirst])
    rw [← h]
    exact Finset.mem_filter.2 ⟨Finset.mem_union_right _ himplied, hm⟩
  · intro h
    refine Finset.Subset.antisymm (fun p hp => ?_) fun c hc => Finset.mem_filter.2 ⟨?_, hT c hc⟩
    · obtain ⟨hmem, hm⟩ := Finset.mem_filter.1 hp
      have hcode := isCode_of_isPage (isPage_of_isMatrix hm)
      rcases Finset.mem_union.1 hmem with hK | hI
      · refine ((hcovered p hcode).1 hK).resolve_right ?_
        rintro ⟨a, ha, hx⟩
        exact hnone a ha p hx hm
      · obtain ⟨c, -, hc, hfirst⟩ := Graph.mem_implied.1 hI
        obtain ⟨hpages, hcovers, hearlier⟩ := Graph.firstPage_eq_some.1 hfirst
        have hcp := (mem_pagesGranting p c).1 hpages
        obtain ⟨d, hd, hfree⟩ := (implied_by_companion p (mem_matrixKeys hm) c hcp hc).resolve_left
          (Graph.not_dominated_of_first hfirst)
        rcases (hcovered d (isCode_of_granted p d hd)).1 (hcovers d hd) with hdT | ⟨a, ha, hda⟩
        · have := not_isMatrix_of_declared p (mem_matrixKeys hm) d (mem_declaredBy.2 (.inl hd))
          rw [hT d hdT] at this
          cases this
        · rcases hfree a (hkeys a ha) hda with rfl | hcompanion | hq
          · exact ha
          · exact h a ha p hcompanion
          · refine absurd (fun y hy => ?_) (hearlier a hq)
            exact (hcovered y (isCode_of_granted a y hy)).2 (.inr ⟨a, ha, mem_declaredBy.2 (.inl hy)⟩)
    · exact Finset.mem_union_left _ (Graph.subset_reach (by rwa [granted_eq hall]))

/-- **Saving a role again**: it changes nothing exactly if a selection that holds all codes of `configuration.configure`
holds that page, and the matrix shows what was ticked exactly if every ticked page comes with its companion. -/
theorem resave_iff {T : Finset PermissionCode} (hS : ∀ c ∈ S, c.inCatalog = true) (hT : ∀ c ∈ T, c.isMatrix = true) :
    (resolveRoleCodes (resolveRoleCodes S) = resolveRoleCodes S ↔
      ((∀ x ∈ grantsOf configure, Holds S x) → Holds S configure)) ∧
    (((resolveRoleCodes T).filter fun c => c.isMatrix) =
        T ∪ ((T.biUnion fun c => (grantsOf c).toFinset).filter fun c => c.isMatrix) ↔
      ∀ a ∈ T, ∀ p ∈ companion a, p ∈ T) :=
  ⟨resolve_resolve_iff fun c hc => isCode_of_inCatalog (hS c hc), matrix_resolve_iff hT⟩

/-- Users may be read and changed, and the page that creates users is ticked along. -/
theorem resave_users :
    resolveRoleCodes (resolveRoleCodes {.of .user .read}) = resolveRoleCodes {.of .user .read} ∧
    ((resolveRoleCodes {.of .adminUsers .update, .of .adminUsers .create}).filter fun c => c.isMatrix) =
      ({.of .adminUsers .update, .of .adminUsers .create} : Finset PermissionCode) ∪
        ((({.of .adminUsers .update, .of .adminUsers .create} : Finset PermissionCode).biUnion fun c =>
          (grantsOf c).toFinset).filter fun c => c.isMatrix) := by
  have h := resave_iff (S := {.of .user .read}) (T := {.of .adminUsers .update, .of .adminUsers .create})
    (by decide) (by decide)
  exact ⟨h.1.2 (by decide), h.2.2 (by decide)⟩

/-- The codes of `configuration.configure`, without a page that grants it. -/
def configurationCodes : Finset PermissionCode :=
  {.of .configuration .view, .of .configuration .publish, .of .configuration .activate, .of .configuration .rollback,
   .of .serviceOrderConfig .update, .of .serviceOrderConfig .publish}

/-- The codes imply the page, which implies the page to update at the next save. Ticking `configuration.update` alone
shows `configuration.view` too. -/
theorem resave_adds_page :
    ((∀ c ∈ configurationCodes, c.inCatalog = true) ∧
      resolveRoleCodes (resolveRoleCodes configurationCodes) ≠ resolveRoleCodes configurationCodes) ∧
    (.of .configuration .view) ∈ resolveRoleCodes {.of .configuration .update} ∧
    ((resolveRoleCodes {.of .configuration .update}).filter fun c => c.isMatrix) ≠
      ({.of .configuration .update} : Finset PermissionCode) ∪
        ((({.of .configuration .update} : Finset PermissionCode).biUnion fun c =>
          (grantsOf c).toFinset).filter fun c => c.isMatrix) := by
  decide

end
end LcsSystem
