import LcsSystem.Frontend.RoleMatrix

/-!
# Opening and saving a role

Which codes a save sends for a role that was opened in the matrix: those of the rows and the extra ones. Where the catalog
is `Readable` and the codes are plain, none is lost and only view codes come in: `savedPermissions_keep`.

* `mem_flatKeys`: the codes of the rows, through the map of granted actions and two normalisations.
* `setPermissionAction_untick`: a box that is ticked and unticked leaves the row as it was.
-/

namespace LcsSystem.RoleMatrix
open Entries

/-- Every code of a page splits into its prefix and its action, and neither stands for two pages. -/
structure Readable (pages : List Page) : Prop where
  values : (pages.map Page.value).Nodup
  prefixes : (pages.map Page.permissionPrefix).Nodup
  named : ∀ page ∈ pages, page.permissionPrefix ≠ ""
  actions : ∀ page ∈ pages, ∀ action ∈ page.actions, action ≠ "" ∧ '.' ∉ action.toList

/-- A code without surrounding white space, and not the wildcard. -/
def PlainCode (code : String) : Prop := code ≠ "" ∧ code ≠ "*" ∧ Frontend.trim code = code

instance : DecidablePred PlainCode := fun _ => inferInstanceAs (Decidable (_ ∧ _ ∧ _))

section
variable {collation : Collation} {pages : List Page} {page : Page} {catalog : Option (List Page)} {codes xs : List String}
  {a b v code : String}

/-! ## Sets and sorting -/

theorem mem_asSet : a ∈ asSet xs ↔ a ∈ xs := List.mem_eraseDups

theorem nodup_asSet : ∀ xs : List String, (asSet xs).Nodup
  | [] => by simp [asSet]
  | x :: xs => by
    rw [asSet, List.eraseDups_cons, List.nodup_cons]
    refine ⟨fun hmem => ?_, nodup_asSet _⟩
    rw [List.mem_eraseDups, List.mem_filter] at hmem
    simp at hmem
termination_by xs => xs.length
decreasing_by
  exact Nat.lt_succ_of_le (List.length_filter_le _ _)

theorem asSet_of_nodup (h : xs.Nodup) : asSet xs = xs := by
  induction xs with
  | nil => rfl
  | cons x xs ih =>
    rw [List.nodup_cons] at h
    have hfilter : xs.filter (fun y => !y == x) = xs := by
      rw [List.filter_eq_self]
      rintro y hy
      have : y ≠ x := by
        rintro rfl
        exact h.1 hy
      simpa using this
    rw [asSet, List.eraseDups_cons, hfilter]
    exact congrArg _ (ih h.2)

theorem mem_addTo : a ∈ addTo xs b ↔ a ∈ xs ∨ a = b := by
  unfold addTo
  split
  next hmem =>
    refine ⟨.inl, ?_⟩
    rintro (h | rfl)
    · exact h
    · exact hmem
  · simp

theorem mem_sortActions : a ∈ sortActions collation xs ↔ a ∈ xs := by
  rw [sortActions, List.mem_insertionSort, mem_asSet]

/-- An action is kept, and view comes in with any other one. -/
theorem mem_normalizePermissionActions : a ∈ normalizePermissionActions collation xs ↔
    (a ∈ xs ∧ a ≠ "") ∨ a = "view" ∧ ∃ b ∈ xs, b ≠ "" ∧ b ≠ "view" := by
  have hvalues : ∀ x, x ∈ asSet (xs.filter fun action => action != "") ↔ x ∈ xs ∧ x ≠ "" := by
    intro x
    simp [mem_asSet]
  have hany : ((asSet (xs.filter fun action => action != "")).any fun action => action != "view") = true ↔
      ∃ b ∈ xs, b ≠ "" ∧ b ≠ "view" := by
    simp only [List.any_eq_true, hvalues, bne_iff_ne, and_assoc]
  simp only [normalizePermissionActions, mem_sortActions]
  split
  next h =>
    rw [mem_addTo, hvalues]
    exact or_congr Iff.rfl (iff_self_and.2 fun _ => hany.1 h)
  next h =>
    rw [hvalues]
    exact (or_iff_left fun hview => h (hany.2 hview.2)).symm

theorem lastOf_eq_some {α : Type} {key : α → String} {ys : List α} {y : α} (h : lastOf key ys v = some y) :
    y ∈ ys ∧ key y = v := by
  have := List.mem_filter.1 (List.mem_of_getLast? h)
  exact ⟨this.1, beq_iff_eq.1 this.2⟩

theorem lastOf_of_mem {α : Type} {key : α → String} {ys : List α} {y : α} (hkeys : (ys.map key).Nodup) (hy : y ∈ ys) :
    lastOf key ys (key y) = some y := by
  cases h : lastOf key ys (key y) with
  | none =>
    rw [lastOf, List.getLast?_eq_none_iff, List.filter_eq_nil_iff] at h
    exact absurd (beq_self_eq_true _) (h y hy)
  | some z =>
    obtain ⟨hz, hkey⟩ := lastOf_eq_some h
    rw [List.inj_on_of_nodup_map hkeys hz hy hkey]

theorem lastOf_eq_none {α : Type} {key : α → String} {ys : List α} : lastOf key ys v = none ↔ ∀ y ∈ ys, key y ≠ v := by
  simp [lastOf]

/-! ## Codes and their parts -/

theorem codeParts_eq_some : codeParts code = some (a, b) ↔ a ≠ "" ∧ '.' ∉ b.toList ∧ code = permissionCode a b := by
  have hcode : ∀ s t : String, (permissionCode s t).toList.reverse = t.toList.reverse ++ '.' :: s.toList.reverse := by
    intro s t
    simp [permissionCode]
  constructor
  · intro h
    simp only [codeParts] at h
    split at h
    · cases h
    · next hfront =>
      obtain ⟨rfl, rfl⟩ := Prod.mk.inj (Option.some.inj h)
      have hsplit := List.takeWhile_append_dropWhile (p := fun c => c != '.') (l := code.toList.reverse)
      cases hdrop : code.toList.reverse.dropWhile fun c => c != '.' with
      | nil => simp [hdrop] at hfront
      | cons d rest =>
        have hdot : d = '.' := by
          have := List.head?_dropWhile_not (fun c => c != '.') code.toList.reverse
          simpa [hdrop] using this
        rw [hdrop, hdot] at hsplit
        refine ⟨?_, ?_, ?_⟩
        · intro hempty
          simp [hdrop] at hfront
          exact hfront (by simpa using congrArg String.toList hempty)
        · rw [String.toList_ofList, List.mem_reverse]
          intro hmem
          simpa using List.mem_takeWhile_imp hmem
        · rw [← String.toList_inj, ← List.reverse_inj, hcode]
          simpa [hdrop] using hsplit.symm
  · rintro ⟨ha, hb, rfl⟩
    have hall : ∀ c ∈ b.toList.reverse, (c != '.') = true := by
      intro c hc
      rw [bne_iff_ne]
      rintro rfl
      exact hb (List.mem_reverse.1 hc)
    have htake : ((permissionCode a b).toList.reverse.takeWhile fun c => c != '.') = b.toList.reverse := by
      rw [hcode, List.takeWhile_append_of_pos hall]
      simp
    have hdrop : ((permissionCode a b).toList.reverse.dropWhile fun c => c != '.') = '.' :: a.toList.reverse := by
      rw [hcode, List.dropWhile_append_of_pos hall]
      simp
    have hne : a.toList ≠ [] := by simpa using ha
    simp [codeParts, htake, hdrop, hne]

/-- Two pages do not share a code. -/
theorem Readable.permissionCode_inj (hread : Readable pages) {other : Page} (hpage : page ∈ pages) (hother : other ∈ pages)
    (ha : a ∈ page.actions) (hb : b ∈ other.actions)
    (h : permissionCode page.permissionPrefix a = permissionCode other.permissionPrefix b) : page = other ∧ a = b := by
  have hparts := codeParts_eq_some.2 ⟨hread.named page hpage, (hread.actions page hpage a ha).2, rfl⟩
  have hparts' := codeParts_eq_some.2 ⟨hread.named other hother, (hread.actions other hother b hb).2, rfl⟩
  rw [h, hparts'] at hparts
  obtain ⟨hnames, haction⟩ := Prod.mk.inj (Option.some.inj hparts)
  exact ⟨(List.inj_on_of_nodup_map hread.prefixes hother hpage hnames).symm, haction.symm⟩

/-! ## From codes to rows -/

variable {granted : Granted}

theorem grantCode_of_page (hread : Readable pages) (hpage : page ∈ pages) (ha : a ∈ page.actions) :
    grantCode pages granted (permissionCode page.permissionPrefix a) =
      overlay granted [(page.value, addTo ((granted.lookup page.value).getD []) a)] := by
  have hstar : permissionCode page.permissionPrefix a ≠ "*" := by
    intro h
    have hdot : '.' ∈ (permissionCode page.permissionPrefix a).toList := by simp [permissionCode]
    rw [h] at hdot
    exact absurd hdot (by decide)
  have hparts := codeParts_eq_some.2 ⟨hread.named page hpage, (hread.actions page hpage a ha).2, rfl⟩
  simp [grantCode, hstar, hparts, lastOf_of_mem hread.prefixes hpage, ha]

theorem grantCode_of_none (hstar : code ≠ "*")
    (h : ∀ page ∈ pages, ∀ a ∈ page.actions, code ≠ permissionCode page.permissionPrefix a) :
    grantCode pages granted code = granted := by
  simp only [grantCode, if_neg hstar]
  cases hparts : codeParts code with
  | none => rfl
  | some parts =>
    obtain ⟨before, action⟩ := parts
    cases hlast : lastOf Page.permissionPrefix pages before with
    | none => simp only [hlast]
    | some page =>
      obtain ⟨hpage, rfl⟩ := lastOf_eq_some hlast
      simp only [hlast]
      refine if_neg fun hcontains => ?_
      exact h page hpage action (by simpa using hcontains) (codeParts_eq_some.1 hparts).2.2

theorem nodup_grantCode (h : (granted.map Prod.fst).Nodup) : ((grantCode pages granted code).map Prod.fst).Nodup := by
  have hover : ∀ (value : String) (actions : List String) {granted : Granted}, (granted.map Prod.fst).Nodup →
      ((overlay granted [(value, actions)]).map Prod.fst).Nodup :=
    fun value actions _ hkeys => nodup_overlay hkeys (List.nodup_singleton value)
  unfold grantCode
  split
  · refine List.foldlRecOn (motive := fun granted : Granted => (granted.map Prod.fst).Nodup) pages _ h ?_
    intro granted' hkeys page _
    exact hover page.value (asSet page.actions) hkeys
  · split
    · exact h
    · split
      · exact h
      · split
        · exact hover _ _ h
        · exact h

/-- The actions that the codes tick on a page. -/
theorem mem_grants (hread : Readable pages) (hpage : page ∈ pages) (hstar : "*" ∉ codes) :
    a ∈ ((codes.foldl (grantCode pages) granted).lookup page.value).getD [] ↔
      a ∈ (granted.lookup page.value).getD [] ∨
        a ∈ page.actions ∧ permissionCode page.permissionPrefix a ∈ codes := by
  induction codes generalizing granted with
  | nil => simp
  | cons code codes ih =>
    rw [List.mem_cons, not_or] at hstar
    rw [List.foldl_cons, ih hstar.2]
    by_cases hcode : ∃ other ∈ pages, ∃ b ∈ other.actions, code = permissionCode other.permissionPrefix b
    · obtain ⟨other, hother, b, hb, rfl⟩ := hcode
      rw [grantCode_of_page hread hother hb, lookup_overlay]
      by_cases hvalue : page.value = other.value
      · obtain rfl := List.inj_on_of_nodup_map hread.values hpage hother hvalue
        have hsame : a ∈ page.actions →
            (permissionCode page.permissionPrefix a = permissionCode page.permissionPrefix b ↔ a = b) :=
          fun ha => ⟨fun h => (hread.permissionCode_inj hpage hpage ha hb h).2, fun h => h ▸ rfl⟩
        simp only [List.lookup_cons_self, Option.some_or, Option.getD_some, mem_addTo, List.mem_cons]
        constructor
        · rintro ((h | rfl) | h)
          · exact .inl h
          · exact .inr ⟨hb, .inl rfl⟩
          · exact .inr ⟨h.1, .inr h.2⟩
        · rintro (h | ⟨ha, h | h⟩)
          · exact .inl (.inl h)
          · exact .inl (.inr ((hsame ha).1 h))
          · exact .inr ⟨ha, h⟩
      · have hne : (page.value == other.value) = false := by simpa using hvalue
        have hother' : a ∈ page.actions → permissionCode page.permissionPrefix a ≠ permissionCode other.permissionPrefix b := by
          intro ha h
          exact hvalue (congrArg Page.value (hread.permissionCode_inj hpage hother ha hb h).1)
        rw [List.lookup_cons, hne, List.lookup_nil, Option.none_or, List.mem_cons]
        exact or_congr Iff.rfl (and_congr_right fun ha => (or_iff_right (hother' ha)).symm)
    · have hnone : ∀ other ∈ pages, ∀ b ∈ other.actions, code ≠ permissionCode other.permissionPrefix b :=
        fun other hother b hb h => hcode ⟨other, hother, b, hb, h⟩
      rw [grantCode_of_none (Ne.symm hstar.1) hnone, List.mem_cons]
      exact or_congr Iff.rfl (and_congr_right fun ha => (or_iff_right (Ne.symm (hnone page hpage a ha))).symm)

/-- One row for one entry. -/
theorem lastOf_grants (h : (granted.map Prod.fst).Nodup) (v : String) :
    (lastOf PermissionRow.documentType
      (granted.map fun e => { id := "perm_" ++ e.1, documentType := e.1, actions := e.2 }) v).map PermissionRow.actions =
      granted.lookup v := by
  have hkeys : ((granted.map fun e => ({ id := "perm_" ++ e.1, documentType := e.1, actions := e.2 } : PermissionRow)).map
      PermissionRow.documentType).Nodup := by
    rwa [List.map_map]
  cases hlookup : granted.lookup v with
  | none =>
    rw [Option.map_eq_none_iff, lastOf_eq_none]
    intro row hrow
    obtain ⟨e, he, rfl⟩ := List.mem_map.1 hrow
    rintro rfl
    exact lookup_eq_none.1 hlookup (List.mem_map.2 ⟨e, he, rfl⟩)
  | some actions =>
    have hmem := List.mem_map_of_mem (f := fun e : String × List String =>
      ({ id := "perm_" ++ e.1, documentType := e.1, actions := e.2 } : PermissionRow)) (Entries.mem_of_lookup hlookup)
    have := lastOf_of_mem hkeys hmem
    simp only at this
    rw [this]
    rfl

/-- An action of a normalised row. -/
theorem mem_normalisedRow {rows : List PermissionRow} : a ∈ (normalisedRow collation rows page).actions ↔
    a ∈ page.actions ∧
      a ∈ normalizePermissionActions collation
        (((lastOf PermissionRow.documentType rows page.value).map PermissionRow.actions).getD []) := by
  rw [normalisedRow, List.mem_filter, List.contains_iff_mem, and_comm]

theorem lastOf_normaliseRows (collation : Collation) (rows : List PermissionRow) (hvalues : (pages.map Page.value).Nodup) (hpage : page ∈ pages) :
    lastOf PermissionRow.documentType (normaliseRows collation rows pages) page.value =
      some (normalisedRow collation rows page) := by
  have hkeys : ((normaliseRows collation rows pages).map PermissionRow.documentType).Nodup := by
    rwa [normaliseRows, List.map_map]
  exact lastOf_of_mem (y := normalisedRow collation rows page) hkeys (List.mem_map_of_mem hpage)

/-- The boxes that an opened role has. -/
theorem mem_openedRow (hread : Readable pages) (hpage : page ∈ pages) (hstar : "*" ∉ codes) :
    a ∈ (normalisedRow collation ((codes.foldl (grantCode pages) []).map fun e =>
        { id := "perm_" ++ e.1, documentType := e.1, actions := e.2 }) page).actions ↔
      a ∈ page.actions ∧ (permissionCode page.permissionPrefix a ∈ codes ∨
        a = "view" ∧ ∃ b ∈ page.actions, b ≠ "view" ∧ permissionCode page.permissionPrefix b ∈ codes) := by
  have hkeys : ((codes.foldl (grantCode pages) []).map Prod.fst).Nodup :=
    List.foldlRecOn (motive := fun granted : Granted => (granted.map Prod.fst).Nodup) codes _ List.nodup_nil
      fun _ h _ _ => nodup_grantCode h
  rw [mem_normalisedRow, lastOf_grants hkeys, mem_normalizePermissionActions]
  simp only [mem_grants hread hpage hstar, List.lookup_nil, Option.getD_none, List.not_mem_nil, false_or]
  refine and_congr_right fun ha => or_congr ?_ (and_congr_right fun _ => ?_)
  · exact ⟨fun h => h.1.2, fun h => ⟨⟨ha, h⟩, (hread.actions page hpage a ha).1⟩⟩
  · constructor
    · rintro ⟨b, ⟨hb, hcode⟩, _, hview⟩
      exact ⟨b, hb, hview, hcode⟩
    · rintro ⟨b, hb, hview, hcode⟩
      exact ⟨b, ⟨hb, hcode⟩, (hread.actions page hpage b hb).1, hview⟩

/-! ## From rows to codes -/

/-- A code of a page that an opened role has a box for. -/
def Opened (pages : List Page) (codes : List String) (code : String) : Prop :=
  ∃ page ∈ pages, ∃ a ∈ page.actions, code = permissionCode page.permissionPrefix a ∧
    (code ∈ codes ∨ a = "view" ∧ ∃ b ∈ page.actions, b ≠ "view" ∧ permissionCode page.permissionPrefix b ∈ codes)

/-- The codes of one row. -/
theorem mem_rowCodes (hread : Readable pages) (hpage : page ∈ pages) {row : PermissionRow}
    (hrow : row.documentType = page.value) :
    code ∈ rowCodes pages row ↔ ∃ a ∈ row.actions, code = permissionCode page.permissionPrefix a := by
  rw [rowCodes, hrow, lastOf_of_mem hread.values hpage, Option.map_some]
  have hnamed := hread.named page hpage
  split
  next h => cases h
  next h => exact absurd (Option.some.inj h) hnamed
  next h =>
    obtain rfl := Option.some.inj h
    rw [List.mem_map]
    exact exists_congr fun a => and_congr_right fun _ => eq_comm

theorem mem_flatKeys (hread : Readable (pagesOf catalog)) (hstar : "*" ∉ codes) :
    code ∈ permissionRowsToFlatKeys collation (permissionRowsFromFlatKeys collation codes catalog) catalog ↔
      Opened (pagesOf catalog) codes code := by
  have hagain : ∀ page ∈ pagesOf catalog, ∀ a,
      a ∈ (normalisedRow collation (permissionRowsFromFlatKeys collation codes catalog) page).actions ↔
        a ∈ page.actions ∧ (permissionCode page.permissionPrefix a ∈ codes ∨
          a = "view" ∧ ∃ b ∈ page.actions, b ≠ "view" ∧ permissionCode page.permissionPrefix b ∈ codes) := by
    intro page hpage a
    have hlast := lastOf_normaliseRows collation ((codes.foldl (grantCode (pagesOf catalog)) []).map
      fun e => { id := "perm_" ++ e.1, documentType := e.1, actions := e.2 }) hread.values hpage
    rw [mem_normalisedRow, permissionRowsFromFlatKeys, hlast, Option.map_some, Option.getD_some,
      mem_normalizePermissionActions]
    simp only [mem_openedRow hread hpage hstar]
    constructor
    · rintro ⟨ha, ⟨h, _⟩ | ⟨rfl, b, ⟨hb, hcode⟩, _, hview⟩⟩
      · exact h
      · exact ⟨ha, .inr ⟨rfl, b, hb, hview, hcode.resolve_right fun h => hview h.1⟩⟩
    · rintro ⟨ha, h⟩
      exact ⟨ha, .inl ⟨⟨ha, h⟩, (hread.actions page hpage a ha).1⟩⟩
  rw [permissionRowsToFlatKeys, List.mem_insertionSort, mem_asSet, normaliseRows, List.flatMap_map, List.mem_flatMap]
  refine exists_congr fun page => and_congr_right fun hpage => ?_
  rw [mem_rowCodes hread hpage rfl]
  simp only [hagain page hpage]
  constructor
  · rintro ⟨a, ⟨ha, h⟩, rfl⟩
    exact ⟨a, ha, rfl, h⟩
  · rintro ⟨a, ha, rfl, h⟩
    exact ⟨a, ⟨ha, h⟩, rfl⟩

theorem mem_pagePermissionCodes : code ∈ pagePermissionCodes catalog ↔
    ∃ page ∈ pagesOf catalog, ∃ a ∈ page.actions, code = permissionCode page.permissionPrefix a := by
  simp [pagePermissionCodes, mem_asSet, eq_comm]

theorem mem_extraPermissionCodes : code ∈ extraPermissionCodes codes catalog ↔
    (∃ stored ∈ codes, Frontend.trim stored = code) ∧ code ≠ "" ∧ code ≠ "*" ∧ code ∉ pagePermissionCodes catalog := by
  simp [extraPermissionCodes, mem_asSet, and_assoc]

/-! ## One box -/

theorem actionLe_total (left right : String) : actionLe collation left right ∨ actionLe collation right left := by
  unfold actionLe
  rcases lt_trichotomy (actionIndex left) (actionIndex right) with h | h | h
  · exact .inl (.inl h)
  · exact (collation.total left right).imp (fun hle => .inr ⟨h, hle⟩) fun hle => .inr ⟨h.symm, hle⟩
  · exact .inr (.inl h)

theorem actionLe_trans {c : String} (hab : actionLe collation a b) (hbc : actionLe collation b c) : actionLe collation a c := by
  unfold actionLe at *
  rcases hab with hab | ⟨hab, hle⟩ <;> rcases hbc with hbc | ⟨hbc, hle'⟩
  · exact .inl (hab.trans hbc)
  · exact .inl (hbc ▸ hab)
  · exact .inl (hab ▸ hbc)
  · exact .inr ⟨hab.trans hbc, collation.trans _ _ _ hle hle'⟩

instance actionLe_isTotal : Std.Total (actionLe collation) := ⟨actionLe_total⟩
instance actionLe_isTrans : IsTrans String (actionLe collation) := ⟨fun _ _ _ => actionLe_trans⟩

theorem sublist_filter_of_forall {ys : List String} {p : String → Bool} (h : xs.Sublist ys) (hp : ∀ x ∈ xs, p x = true) :
    xs.Sublist (ys.filter p) := by
  have := h.filter p
  rwa [List.filter_eq_self.2 hp] at this

/-- A set of actions in their order, with view and without the empty text. -/
structure Normal (collation : Collation) (actions : List String) : Prop where
  nodup : actions.Nodup
  sorted : actions.Pairwise (actionLe collation)
  named : "" ∉ actions
  view : "view" ∈ actions

theorem normalisedRow_normal {rows : List PermissionRow} (hview : "view" ∈ (normalisedRow collation rows page).actions) :
    Normal collation (normalisedRow collation rows page).actions := by
  set stored := ((lastOf PermissionRow.documentType rows page.value).map PermissionRow.actions).getD []
  have hsub : (normalisedRow collation rows page).actions.Sublist (normalizePermissionActions collation stored) :=
    List.filter_sublist
  refine ⟨?_, ?_, fun hmem => ?_, hview⟩
  · exact ((List.perm_insertionSort _ _).nodup_iff.2 (nodup_asSet _)).sublist hsub
  · exact (List.pairwise_insertionSort _ _).sublist hsub
  · rcases mem_normalizePermissionActions.1 (hsub.subset hmem) with h | h
    · exact h.2 rfl
    · exact absurd h.1 (by decide)

/-- Actions with view among them lose the empty text, and are sorted. -/
theorem normalizePermissionActions_of_view (hnodup : xs.Nodup) (hview : "view" ∈ xs) :
    normalizePermissionActions collation xs = (xs.filter fun action => action != "").insertionSort (actionLe collation) := by
  have hkept : asSet (xs.filter fun action => action != "") = xs.filter fun action => action != "" :=
    asSet_of_nodup (hnodup.filter _)
  have hmem : "view" ∈ xs.filter fun action => action != "" := List.mem_filter.2 ⟨hview, rfl⟩
  simp only [normalizePermissionActions, hkept, addTo, if_pos hmem, ite_self, sortActions]

/-- **A box that is ticked and unticked** leaves the other actions. -/
theorem setPermissionAction_untick {row : PermissionRow} (hrow : Normal collation row.actions) (ha : a ∉ row.actions) :
    setPermissionAction collation (setPermissionAction collation row a true) a false = row := by
  have hnotview : a ≠ "view" := by
    rintro rfl
    exact ha hrow.view
  have hself : normalizePermissionActions collation row.actions = row.actions := by
    rw [normalizePermissionActions_of_view hrow.nodup hrow.view, List.filter_eq_self.2, hrow.sorted.insertionSort_eq]
    rintro action hmem
    rw [bne_iff_ne]
    rintro rfl
    exact hrow.named hmem
  -- Ticking appends, and sorting keeps the old actions in their order.
  set ticked := (row.actions ++ [a]).insertionSort (actionLe collation) with hticked
  have hnodup : (row.actions ++ [a]).Nodup := by
    refine List.nodup_append.2 ⟨hrow.nodup, List.nodup_singleton a, ?_⟩
    rintro b hb c hc rfl
    exact ha (List.mem_singleton.1 hc ▸ hb)
  have hset : setPermissionAction collation row a true = { row with actions := ticked } := by
    have hview : "view" ∈ row.actions ++ [a] := List.mem_append_left _ hrow.view
    simp only [setPermissionAction, hself, if_true, addTo, if_neg ha, if_pos hview, sortActions, asSet_of_nodup hnodup,
      hticked]
  have hnodup' : ticked.Nodup := (List.perm_insertionSort _ _).nodup_iff.2 hnodup
  have hview' : "view" ∈ ticked := (List.mem_insertionSort _).2 (List.mem_append_left _ hrow.view)
  have hsub : row.actions.Sublist ticked := List.sublist_insertionSort hrow.sorted (List.sublist_append_left _ _)
  rw [hset]
  simp only [setPermissionAction, Bool.false_eq_true, if_false, if_neg hnotview,
    normalizePermissionActions_of_view hnodup' hview']
  have hnodup'' : (((ticked.filter fun action => action != "").insertionSort (actionLe collation)).filter
      fun other => other != a).Nodup :=
    ((List.perm_insertionSort _ _).nodup_iff.2 (hnodup'.filter _)).filter _
  rw [sortActions, asSet_of_nodup hnodup'']
  -- So does unticking, and nothing else is left.
  have hkept : row.actions.Sublist ((((ticked.filter fun action => action != "").insertionSort (actionLe collation)).filter
      fun other => other != a).insertionSort (actionLe collation)) := by
    refine List.sublist_insertionSort hrow.sorted (sublist_filter_of_forall ?_ fun b hb => ?_)
    · refine List.sublist_insertionSort hrow.sorted (sublist_filter_of_forall hsub fun b hb => ?_)
      exact bne_iff_ne.2 fun h => hrow.named (h ▸ hb)
    · exact bne_iff_ne.2 fun h => ha (h ▸ hb)
  have hperm : (((ticked.filter fun action => action != "").insertionSort (actionLe collation)).filter
      fun other => other != a).Perm row.actions := by
    refine (List.perm_ext_iff_of_nodup hnodup'' hrow.nodup).2 fun b => ?_
    simp only [List.mem_filter, List.mem_insertionSort, bne_iff_ne, hticked, List.mem_append, List.mem_singleton]
    constructor
    · rintro ⟨⟨h, _⟩, hne⟩
      exact h.resolve_right hne
    · intro hb
      exact ⟨⟨.inl hb, fun h => hrow.named (h ▸ hb)⟩, fun h => ha (h ▸ hb)⟩
  have hlength := hperm.length_eq
  rw [← List.length_insertionSort (actionLe collation)] at hlength
  rw [← hkept.eq_of_length hlength.symm]

/-! ## Opening and saving -/

theorem mem_savedPermissions (hread : Readable (pagesOf catalog)) (hplain : ∀ code ∈ codes, PlainCode code) :
    code ∈ savedPermissions collation codes catalog ↔
      Opened (pagesOf catalog) codes code ∨ code ∈ codes ∧ code ∉ pagePermissionCodes catalog := by
  have hstar : "*" ∉ codes := fun h => (hplain "*" h).2.1 rfl
  have htrim : (∃ stored ∈ codes, Frontend.trim stored = code) ↔ code ∈ codes := by
    constructor
    · rintro ⟨stored, hstored, rfl⟩
      rwa [(hplain stored hstored).2.2]
    · exact fun h => ⟨code, h, (hplain code h).2.2⟩
  rw [savedPermissions, List.mem_insertionSort, mem_asSet, List.mem_append, mem_flatKeys hread hstar,
    mem_extraPermissionCodes, htrim]
  refine or_congr Iff.rfl ⟨fun h => ⟨h.1, h.2.2.2⟩, fun h => ⟨h.1, (hplain code h.1).1, (hplain code h.1).2.1, h.2⟩⟩

end

/-- The pages that the client ships split into codes, each in one way. -/
theorem readable_roleDocumentTypes : Readable roleDocumentTypes :=
  ⟨by decide +kernel, by decide +kernel, by decide +kernel, by decide +kernel⟩

/-- **Opening a role and saving it loses no code**, and adds the view code of a page with another code and no other; and
a box that is ticked and unticked leaves a row with view as it was. -/
theorem savedPermissions_keep (collation : Collation) :
    (∀ (catalog : Option (List Page)) (codes : List String), Readable (pagesOf catalog) →
      (∀ code ∈ codes, PlainCode code) →
      (∀ code ∈ codes, code ∈ savedPermissions collation codes catalog) ∧
        ∀ code ∈ savedPermissions collation codes catalog, code ∉ codes →
          ∃ page ∈ pagesOf catalog, code = permissionCode page.permissionPrefix "view" ∧
            ∃ action ∈ page.actions, action ≠ "view" ∧ permissionCode page.permissionPrefix action ∈ codes) ∧
      ∀ (catalog : Option (List Page)) (rows : List PermissionRow) (includeEmpty : Bool),
        ∀ row ∈ normalizePermissionRows collation rows includeEmpty catalog, ∀ action ∉ row.actions,
          "view" ∈ row.actions →
            setPermissionAction collation (setPermissionAction collation row action true) action false = row := by
  refine ⟨fun catalog codes hread hplain => ⟨fun code hcode => ?_, fun code hcode hnew => ?_⟩, ?_⟩
  · rw [mem_savedPermissions hread hplain]
    by_cases hbox : code ∈ pagePermissionCodes catalog
    · obtain ⟨page, hpage, a, ha, rfl⟩ := mem_pagePermissionCodes.1 hbox
      exact .inl ⟨page, hpage, a, ha, rfl, .inl hcode⟩
    · exact .inr ⟨hcode, hbox⟩
  · rcases (mem_savedPermissions hread hplain).1 hcode with ⟨page, hpage, a, -, rfl, h⟩ | h
    · obtain ⟨rfl, b, hb, hview, hstored⟩ := h.resolve_left hnew
      exact ⟨page, hpage, rfl, b, hb, hview, hstored⟩
    · exact absurd h.1 hnew
  · intro catalog rows includeEmpty row hrow action haction hview
    have hrow' : row ∈ normaliseRows collation rows (pagesOf catalog) := by
      rw [normalizePermissionRows] at hrow
      split at hrow
      · exact hrow
      · exact List.mem_of_mem_filter hrow
    obtain ⟨page, -, rfl⟩ := List.mem_map.1 hrow'
    exact setPermissionAction_untick (normalisedRow_normal hview) haction

/-- Texts by their code points, as `localeCompare` orders those of lower case letters. -/
def Collation.codePoints : Collation where
  le left right := decide (left ≤ right)
  trans a b c hab hbc := by
    rw [decide_eq_true_eq] at *
    exact hab.trans hbc
  total a b := by
    rw [decide_eq_true_eq, decide_eq_true_eq]
    exact le_total a b

/-- A row of the matrix with its view box ticked. -/
def dashboardRow : PermissionRow := ⟨"perm_dashboard", "dashboard", false, 0, ["view"]⟩

/-- A code of a page and one that no page has; and the export box of the dashboard. -/
theorem savedPermissions_keep_dashboard :
    (∀ code ∈ ["backup.read", "configuration.update"],
      code ∈ savedPermissions .codePoints ["backup.read", "configuration.update"] none) ∧
      setPermissionAction .codePoints (setPermissionAction .codePoints dashboardRow "export" true) "export" false =
        dashboardRow := by
  refine ⟨(savedPermissions_keep .codePoints).1 none _ readable_roleDocumentTypes (by decide +kernel) |>.1, ?_⟩
  exact (savedPermissions_keep .codePoints).2 (some [⟨"dashboard", "dashboard", ["view", "export"]⟩]) [dashboardRow] true
    dashboardRow (by decide +kernel) "export" (by decide +kernel) (by decide +kernel)

/-- Codes that a save loses. Surrounding white space hides the code from the rows and not from the extra codes; two pages
with one value share a row; and a page without a prefix, or an action that is empty or has a dot, has codes that no row
reads. -/
theorem code_lost :
    (" dashboard.view" ∉ savedPermissions .codePoints [" dashboard.view"] (some [⟨"dashboard", "dashboard", ["view"]⟩])) ∧
      "" ∉ savedPermissions .codePoints [""] none ∧
      "admin.users.view" ∉ savedPermissions .codePoints ["admin.users.view"]
        (some [⟨"users", "admin.users", ["view"]⟩, ⟨"users", "portal.users", ["view"]⟩]) ∧
      ".view" ∉ savedPermissions .codePoints [".view"] (some [⟨"home", "", ["view"]⟩]) ∧
      "dashboard." ∉ savedPermissions .codePoints ["dashboard."] (some [⟨"dashboard", "dashboard", [""]⟩]) ∧
      "dashboard.view.own" ∉ savedPermissions .codePoints ["dashboard.view.own"]
        (some [⟨"dashboard", "dashboard", ["view.own"]⟩]) := by
  refine ⟨?_, ?_, ?_, ?_, ?_, ?_⟩ <;> decide +kernel

end LcsSystem.RoleMatrix
