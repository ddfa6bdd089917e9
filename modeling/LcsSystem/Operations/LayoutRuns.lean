import LcsSystem.Operations.ComponentRows
import LcsSystem.MasterData.ComponentLayouts
import LcsSystem.MasterData.VersionRuns

/-!
# Rows that a single-record layout would hide

A layout for one record shows one row of a group, so an order must not have more of them. `no_row_hidden` says
when a run of layout changes and saves keeps that: the guard of the layout changes covers the groups that were not
single before, `HidesNoRow` is what it leaves open.
-/

namespace LcsSystem
open Relational Checks Transition

/-! ## Requests -/

inductive LayoutAction
  | addTabGroup (tabId groupId : ℕ) (p : LayoutPayload)
  | updateTabGroup (tabGroupId : ℕ) (p : LayoutPayload)
  | updateGroup (groupId : ℕ) (p : GroupPayload)
  | bulkSave (orderId groupId : ℕ) (rows : List RowPayload) (tabGroupId : Option ℕ)

section
variable (fromIsoFormat : String → Bool)

def LayoutAction.request (db : ConfigDb) : LayoutAction → Result ConfigDb
  | .addTabGroup tabId groupId p => LcsSystem.addTabGroup db tabId groupId p
  | .updateTabGroup tabGroupId p => LcsSystem.updateTabGroup db tabGroupId p
  | .updateGroup groupId p => LcsSystem.updateGroup db groupId p
  | .bulkSave orderId groupId rows tabGroupId => LcsSystem.bulkSave fromIsoFormat db orderId groupId rows tabGroupId

def layoutStep (db : ConfigDb) (a : LayoutAction) : ConfigDb := orKeep db (a.request fromIsoFormat db)

end

/-! ## What must not be hidden -/

/-- An active assignment shows one record of the group. -/
def ShownSingle (db : ConfigDb) (groupId : ℕ) : Prop :=
  ∃ link ∈ db.tabGroups.values, ∃ group ∈ db.groups.get? groupId,
    link.groupId = groupId ∧ link.status = "ACTIVE" ∧ (resolveLayout link group).isSingle = true

instance (db : ConfigDb) (groupId : ℕ) : Decidable (ShownSingle db groupId) :=
  inferInstanceAs (Decidable (∃ link ∈ db.tabGroups.values, _))

/-- No order has a second row in a group that shows one record. -/
def NoRowHidden (db : ConfigDb) : Prop :=
  ∀ groupId, ShownSingle db groupId → ∀ orderId, (shownRows db orderId groupId).length ≤ 1

/-- A request asks for one record, where `current` is the layout so far. -/
def LayoutPayload.asksSingle (p : LayoutPayload) (current : Layout) : Bool :=
  match p.dataCardinality, p.displayMode with
  | some s, _ => dataCardinalityOf s = some .single
  | none, some s => displayModeOf s = some .formOnly
  | none, none => current.isSingle

/-- The assignment shows one record of a group that is a form. -/
def ComponentTabGroup.singleAsForm (link : ComponentTabGroup) : Bool :=
  link.dataCardinality.getD .single = .single || link.displayMode.getD .formOnly = .formOnly

/-- The submitted rows that the form shows: those that name no archived row. -/
def submittedRows (db : ConfigDb) (orderId groupId : ℕ) (rows : List RowPayload) : List RowPayload :=
  rows.filter fun item => !(existingRow (storedRows db orderId groupId) item).any fun row => row.2.isArchived

/-- What a request must see to that no guard does. -/
def HidesNoRow (db : ConfigDb) : LayoutAction → Prop
  | .addTabGroup _ groupId p => ∀ group ∈ db.groups.get? groupId, group.renderMode = .form →
      p.asksSingle group.renderMode.legacyLayout = true → (∀ status ∈ p.status, status = "" ∨ status = "ACTIVE") →
        OneRowEach db groupId
  | .updateTabGroup tabGroupId p => ∀ link ∈ db.tabGroups.get? tabGroupId, ∀ group ∈ db.groups.get? link.groupId,
      (resolveLayout link group).dataCardinality = .single → (resolveLayout link group).displayMode = .formOnly →
        p.asksSingle (resolveLayout link group) = true → link.status ≠ "ACTIVE" → p.status = some "ACTIVE" →
          OneRowEach db link.groupId
  | .updateGroup groupId p => p.renderMode = some .form →
      (∃ link ∈ db.tabGroups.values, link.groupId = groupId ∧ link.status = "ACTIVE" ∧ link.singleAsForm = true) →
        OneRowEach db groupId
  | .bulkSave orderId groupId rows _ => ShownSingle db groupId → (submittedRows db orderId groupId rows).length ≤ 1

instance (db : ConfigDb) : ∀ a, Decidable (HidesNoRow db a)
  | .addTabGroup _ groupId _ => inferInstanceAs (Decidable (∀ group ∈ db.groups.get? groupId, _))
  | .updateTabGroup tabGroupId _ => inferInstanceAs (Decidable (∀ link ∈ db.tabGroups.get? tabGroupId, _))
  | .updateGroup _ p => inferInstanceAs (Decidable (p.renderMode = some .form → _))
  | .bulkSave _ groupId _ _ => inferInstanceAs (Decidable (ShownSingle db groupId → _))

variable {db db' : ConfigDb}

theorem oneRowEach_iff {groupId : ℕ} :
    OneRowEach db groupId ↔ ∀ orderId, (shownRows db orderId groupId).length ≤ 1 := by
  constructor
  · intro h orderId
    cases hrows : shownRows db orderId groupId with
    | nil => exact Nat.zero_le 1
    | cons r rs =>
      obtain ⟨hget, hrow⟩ := Table.mem_select.1 (hrows ▸ List.mem_cons_self : r ∈ shownRows db orderId groupId)
      simp only [Bool.and_eq_true, beq_iff_eq] at hrow
      have hone := h r.2 (Table.mem_values.2 ⟨r.1, hget⟩)
      rwa [hrow.1.1, hrows] at hone
  · exact fun h row _ => h row.serviceOrderId

/-! ## Layout changes -/

/-- An accepted layout shows one record only where the request asks for that. -/
theorem asksSingle_of_patchedLayout {p : LayoutPayload} {current layout : Layout}
    (h : patchedLayout p current = .ok layout) (hsingle : layout.isSingle = true) : p.asksSingle current = true := by
  simp only [patchedLayout, bind_eq_ok, check_eq_ok, pure_eq_ok] at h
  obtain ⟨mode, hmode, cardinality, hcardinality, -, -, -, hfits, rfl⟩ := h
  have hfits : mode = .formOnly → cardinality = .single := by
    intro hform
    cases cardinality with
    | single => rfl
    | multiple => exact absurd ⟨hform, rfl⟩ hfits
  simp only [Layout.isSingle, Bool.or_eq_true, decide_eq_true_eq] at hsingle
  have hone : cardinality = .single := hsingle.elim id hfits
  unfold LayoutPayload.asksSingle
  unfold patchedCardinality at hcardinality
  cases hasked : p.dataCardinality with
  | some s =>
    rw [hasked] at hcardinality
    simpa [hone] using hcardinality
  | none =>
    rw [hasked] at hcardinality
    cases hshown : p.displayMode with
    | some s =>
      rw [hshown] at hcardinality hmode
      simp only [patchedMode, require_eq_ok] at hmode
      simp only [Option.isSome_some, if_true, Except.ok.injEq] at hcardinality
      have hform : mode = .formOnly := by
        by_contra hne
        rw [if_neg hne, hone] at hcardinality
        cases hcardinality
      simpa [hform] using hmode
    | none =>
      rw [hshown] at hcardinality
      simp only [Option.isSome_none, Bool.false_eq_true, if_false, Except.ok.injEq] at hcardinality
      simp [Layout.isSingle, hcardinality, hone]

theorem isSingle_withLayout (link : ComponentTabGroup) (layout : Layout) (group : ComponentGroup) :
    resolveLayout (link.withLayout layout) group = layout := rfl

theorem isSingle_form {link : ComponentTabGroup} {group : ComponentGroup} (hform : group.renderMode = .form) :
    (resolveLayout link group).isSingle = link.singleAsForm := by
  simp [Layout.isSingle, resolveLayout, RenderMode.legacyLayout, hform, ComponentTabGroup.singleAsForm]

/-- A table shows one record only where the assignment says so itself. -/
theorem isSingle_of_table {link : ComponentTabGroup} {group : ComponentGroup} (htable : group.renderMode = .table)
    (h : (resolveLayout link group).isSingle = true) (other : ComponentGroup) :
    (resolveLayout link other).isSingle = true := by
  have hset : link.dataCardinality = some .single ∨ link.displayMode = some .formOnly := by
    simp only [Layout.isSingle, resolveLayout, RenderMode.legacyLayout, htable, Bool.or_eq_true, decide_eq_true_eq] at h
    refine h.imp ?_ ?_
    · cases link.dataCardinality <;> simp
    · cases link.displayMode <;> simp
  rcases hset with hset | hset <;> simp [Layout.isSingle, resolveLayout, hset]

/-- The guard refused to hide a row, or had nothing to say. -/
theorem guardLayoutChange_eq_ok {groupId : ℕ} {current target : Layout} {u : PUnit}
    (h : guardLayoutChange db groupId current target = .ok u) (hsingle : target.isSingle = true) :
    current.dataCardinality = .single ∧ current.displayMode = .formOnly ∨ OneRowEach db groupId := by
  rw [guardLayoutChange, check_eq_ok] at h
  rcases h with h | h
  · left
    simpa [becomesSingle, hsingle] using h
  · exact .inr h

/-- A write that leaves the rows alone and shows no further group as one record. -/
theorem NoRowHidden.of_shown (h : NoRowHidden db) (hrows : db'.rows = db.rows)
    (hshown : ∀ groupId, ShownSingle db' groupId → ShownSingle db groupId ∨ OneRowEach db groupId) :
    NoRowHidden db' := by
  intro groupId hsingle orderId
  have hsame : shownRows db' orderId groupId = shownRows db orderId groupId := by
    rw [shownRows, hrows]
    rfl
  rw [hsame]
  rcases hshown groupId hsingle with hold | hone
  · exact h groupId hold orderId
  · exact oneRowEach_iff.1 hone orderId

theorem addTabGroup_shown {tabId groupId : ℕ} {p : LayoutPayload} (h : addTabGroup db tabId groupId p = .ok db')
    (hhides : HidesNoRow db (.addTabGroup tabId groupId p)) (g : ℕ) (hg : ShownSingle db' g) :
    ShownSingle db g ∨ OneRowEach db g := by
  simp only [addTabGroup, bind_eq_ok, require_eq_ok, check_eq_ok, pure_eq_ok] at h
  obtain ⟨-, -, group, hgroup, -, -, layout, hlayout, u, hguard, rfl⟩ := h
  obtain ⟨link, hlink, group', hgroup', hid, hactive, hsingle⟩ := hg
  rw [Table.values_insert, List.mem_append, List.mem_singleton] at hlink
  rcases hlink with hlink | rfl
  · exact .inl ⟨link, hlink, group', hgroup', hid, hactive, hsingle⟩
  · right
    cases hid
    rw [isSingle_withLayout] at hsingle
    rcases guardLayoutChange_eq_ok hguard hsingle with ⟨hone, -⟩ | hone
    · have hform : group.renderMode = .form := by
        cases hmode : group.renderMode with
        | form => rfl
        | table =>
          rw [hmode] at hone
          cases hone
      refine hhides group hgroup hform (asksSingle_of_patchedLayout hlayout hsingle) fun status hstatus => ?_
      rw [Option.mem_def] at hstatus
      by_cases hempty : status = ""
      · exact .inl hempty
      · right
        rw [ComponentTabGroup.withLayout, hstatus, Option.filter_some, if_pos (by simpa using hempty)] at hactive
        exact hactive
    · exact hone

theorem updateTabGroup_shown {tabGroupId : ℕ} {p : LayoutPayload} (h : updateTabGroup db tabGroupId p = .ok db')
    (hhides : HidesNoRow db (.updateTabGroup tabGroupId p)) (g : ℕ) (hg : ShownSingle db' g) :
    ShownSingle db g ∨ OneRowEach db g := by
  simp only [updateTabGroup, bind_eq_ok, require_eq_ok, pure_eq_ok] at h
  obtain ⟨stored, hstored, group, hgroup, layout, hlayout, u, hguard, rfl⟩ := h
  obtain ⟨link, hlink, group', hgroup', hid, hactive, hsingle⟩ := hg
  obtain ⟨i, hget⟩ := Table.mem_values.1 hlink
  rw [Table.get?_modify] at hget
  split at hget
  · next hi =>
    subst hi
    rw [hstored, Option.map_some, Option.some.injEq] at hget
    subst hget hid
    replace hsingle : layout.isSingle = true := hsingle
    rcases guardLayoutChange_eq_ok hguard hsingle with ⟨hcardinality, hmode⟩ | hone
    · by_cases hold : stored.status = "ACTIVE"
      · left
        refine ⟨stored, Table.mem_values.2 ⟨i, hstored⟩, group, hgroup, rfl, hold, ?_⟩
        simp [Layout.isSingle, hcardinality]
      · right
        refine hhides stored hstored group hgroup hcardinality hmode (asksSingle_of_patchedLayout hlayout hsingle) hold ?_
        cases hstatus : p.status with
        | none =>
          simp only [hstatus, Option.getD_none] at hactive
          exact absurd hactive hold
        | some status => simpa [hstatus] using hactive
    · exact .inr hone
  · exact .inl ⟨link, Table.mem_values.2 ⟨i, hget⟩, group', hgroup', hid, hactive, hsingle⟩

theorem updateGroup_shown {groupId : ℕ} {p : GroupPayload} (h : updateGroup db groupId p = .ok db')
    (hhides : HidesNoRow db (.updateGroup groupId p)) (g : ℕ) (hg : ShownSingle db' g) :
    ShownSingle db g ∨ OneRowEach db g := by
  simp only [updateGroup, bind_eq_ok, require_eq_ok, pure_eq_ok] at h
  obtain ⟨group, hgroup, rfl⟩ := h
  obtain ⟨link, hlink, group', hgroup', hid, hactive, hsingle⟩ := hg
  rw [Option.mem_def, Table.get?_modify] at hgroup'
  split at hgroup'
  · next hg =>
    subst hg
    rw [hgroup, Option.map_some, Option.some.injEq] at hgroup'
    subst hgroup'
    cases hmode : p.renderMode with
    | none =>
      have hsame : resolveLayout link (group.patched p) = resolveLayout link group := by
        simp [resolveLayout, ComponentGroup.patched, hmode]
      exact .inl ⟨link, hlink, group, hgroup, hid, hactive, hsame ▸ hsingle⟩
    | some mode =>
      cases mode with
      | form =>
        have hform : (group.patched p).renderMode = .form := by simp [ComponentGroup.patched, hmode]
        rw [isSingle_form hform] at hsingle
        exact .inr (hhides hmode ⟨link, hlink, hid, hactive, hsingle⟩)
      | table =>
        have htable : (group.patched p).renderMode = .table := by simp [ComponentGroup.patched, hmode]
        exact .inl ⟨link, hlink, group, hgroup, hid, hactive, isSingle_of_table htable hsingle group⟩
  · exact .inl ⟨link, hlink, group', hgroup', hid, hactive, hsingle⟩

/-! ## Saves -/

/-- A condition on rows that does not look at values and numbers sees the inserted rows only. -/
theorem length_select_writeRow {p : ComponentRow → Bool}
    (hp : ∀ row values rowNo, p { row with values := values, rowNo := rowNo } = p row) (orderId groupId : ℕ)
    (versionId : Option ℕ) (rows : List ValidatedRow) (t : Table ComponentRow) :
    ((rows.foldl (writeRow orderId groupId versionId) t).select p).length =
      (t.select p).length +
        if p ⟨orderId, groupId, 0, false, [], versionId⟩ then (rows.filter fun row => row.existing.isNone).length else 0 := by
  induction rows generalizing t with
  | nil => simp
  | cons row rows ih =>
    rw [List.foldl_cons, ih]
    cases hrow : row.existing with
    | some stored =>
      simp only [writeRow, hrow, Table.select_modify fun r => hp r row.values row.index, List.length_map, List.filter_cons,
        Option.isNone_some, Bool.false_eq_true, if_false]
    | none =>
      have hnew := hp ⟨orderId, groupId, 0, false, [], versionId⟩ row.values row.index
      simp only [writeRow, hrow, Table.select_insert, List.length_append, List.filter_cons, Option.isNone_none, if_true,
        List.length_cons]
      rw [hnew]
      split
      · rw [List.length_singleton]
        omega
      · rfl

/-- A shown row that is left after clearing is one that a submitted row names. -/
theorem shown_clearRows {orderId groupId : ℕ} {validated : List ValidatedRow}
    (hexisting : ∀ row ∈ validated, ∀ stored ∈ row.existing, stored ∈ storedRows db orderId groupId) {r : ℕ × ComponentRow}
    (hr : r ∈ (clearRows db.rows orderId groupId (keptIds validated)).select fun row =>
      row.serviceOrderId == orderId && row.groupId == groupId && !row.isArchived) :
    r.1 ∈ validated.filterMap fun row => (row.existing.filter fun stored => !stored.2.isArchived).map Prod.fst := by
  rw [Table.mem_select, clearRows, Table.get?_erase, Option.filter_eq_some_iff] at hr
  obtain ⟨⟨hget, hnamed⟩, hshown⟩ := hr
  simp only [Bool.and_eq_true, beq_iff_eq, Bool.not_eq_true'] at hshown
  simp only [hshown.1.1, hshown.1.2, beq_self_eq_true, Bool.and_self, Bool.true_and, Bool.not_not, List.contains_iff_mem,
    keptIds, List.mem_filterMap, Option.map_eq_some_iff] at hnamed
  obtain ⟨row, hrow, stored, hstored, hid⟩ := hnamed
  have hsame := (Table.mem_select.1 (hexisting row hrow stored hstored)).1
  rw [hid, hget, Option.some.injEq] at hsame
  refine List.mem_filterMap.2 ⟨row, hrow, ?_⟩
  rw [hstored, Option.filter_some, ← hsame, hshown.2]
  simpa using hid

/-- The rows of a group that an order shows after a save: one for each that was submitted, but for archived ones. -/
theorem length_shown_writeRows {orderId groupId : ℕ} (versionId : Option ℕ) {validated : List ValidatedRow}
    (hexisting : ∀ row ∈ validated, ∀ stored ∈ row.existing, stored ∈ storedRows db orderId groupId) :
    ((writeRows db.rows orderId groupId versionId validated).select fun row =>
      row.serviceOrderId == orderId && row.groupId == groupId && !row.isArchived).length ≤
      (validated.filter fun row => !row.existing.any fun stored => stored.2.isArchived).length := by
  have hnodup : (((clearRows db.rows orderId groupId (keptIds validated)).select fun row =>
      row.serviceOrderId == orderId && row.groupId == groupId && !row.isArchived).map Prod.fst).Nodup :=
    (Table.nodup _).sublist (List.filter_sublist.map _)
  have hle := (List.subperm_of_subset hnodup (List.forall_mem_map.2 fun r hr => shown_clearRows hexisting hr)).length_le
  rw [List.length_map] at hle
  have hcount : (validated.filter fun row => !row.existing.any fun stored => stored.2.isArchived).length =
      (validated.filterMap fun row => (row.existing.filter fun stored => !stored.2.isArchived).map Prod.fst).length +
        (validated.filter fun row => row.existing.isNone).length := by
    clear hexisting hnodup hle
    induction validated with
    | nil => rfl
    | cons row rows ih =>
      cases hrow : row.existing with
      | none =>
        simp [hrow, ih]
        omega
      | some stored =>
        cases harchived : stored.2.isArchived
        · simp [hrow, harchived, ih, Option.filter]
          omega
        · simp [hrow, harchived, ih, Option.filter]
  rw [writeRows, length_select_writeRow fun _ _ _ => rfl]
  simp only [beq_self_eq_true, Bool.and_self, Bool.not_false, if_true]
  omega

/-- The rows of other orders and groups are left alone. -/
theorem length_shown_writeRows_of_ne {orderId groupId o g : ℕ} (versionId : Option ℕ) {validated : List ValidatedRow}
    (hne : ¬(o = orderId ∧ g = groupId)) :
    ((writeRows db.rows orderId groupId versionId validated).select fun row =>
      row.serviceOrderId == o && row.groupId == g && !row.isArchived).length = (shownRows db o g).length := by
  have hnot : ¬(orderId = o ∧ groupId = g) := fun h => hne ⟨h.1.symm, h.2.symm⟩
  rw [writeRows, length_select_writeRow fun _ _ _ => rfl, if_neg (by simpa using hnot), clearRows,
    Table.select_erase_of_not]
  · rfl
  · intro id row _ hrow
    simp only [Bool.and_eq_true, beq_iff_eq] at hrow
    rw [hrow.1.1, hrow.1.2]
    simpa using fun ho hg => absurd ⟨ho, hg⟩ hne

theorem bulkSave_shown {fromIsoFormat : String → Bool} {orderId groupId : ℕ} {rows : List RowPayload}
    {tabGroupId : Option ℕ} (hdb : NoRowHidden db) (h : bulkSave fromIsoFormat db orderId groupId rows tabGroupId = .ok db')
    (hhides : HidesNoRow db (.bulkSave orderId groupId rows tabGroupId)) : NoRowHidden db' := by
  simp only [bulkSave, bind_eq_ok, require_eq_ok, check_eq_ok, pure_eq_ok] at h
  obtain ⟨order, -, group, -, layout, -, -, -, -, -, -, -, rfl⟩ := h
  intro g hg o
  by_cases hsame : o = orderId ∧ g = groupId
  · obtain ⟨rfl, rfl⟩ := hsame
    have hsub := existing_validateRows_sublist fromIsoFormat (fun type => db.referenceIds type o)
      (groupAttributes db.toConfiguration g) (storedRows db o g) [] 1 rows
    refine (length_shown_writeRows order.configurationVersionId fun row hrow stored hstored => ?_).trans ?_
    · obtain ⟨item, -, hitem⟩ := List.mem_map.1 (hsub.subset (List.mem_map_of_mem hrow))
      exact existingRow_mem (hitem.trans hstored)
    · have hlength := (hsub.filter fun existing => !existing.any fun stored => stored.2.isArchived).length_le
      rw [List.filter_map, List.filter_map, List.length_map, List.length_map] at hlength
      exact hlength.trans (hhides hg)
  · exact (length_shown_writeRows_of_ne order.configurationVersionId hsame).trans_le (hdb g hg o)

/-! ## Runs -/

section
variable {fromIsoFormat : String → Bool}

theorem layoutStep_noRowHidden (db : ConfigDb) (a : LayoutAction) (hdb : NoRowHidden db) (hhides : HidesNoRow db a) :
    NoRowHidden (layoutStep fromIsoFormat db a) := by
  unfold layoutStep
  cases hrequest : a.request fromIsoFormat db with
  | error e => exact hdb
  | ok db' =>
    show NoRowHidden db'
    cases a with
    | addTabGroup tabId groupId p =>
      refine hdb.of_shown ?_ (addTabGroup_shown hrequest hhides)
      simp only [LayoutAction.request, addTabGroup, bind_eq_ok, pure_eq_ok] at hrequest
      obtain ⟨-, -, -, -, -, -, -, -, -, -, rfl⟩ := hrequest
      rfl
    | updateTabGroup tabGroupId p =>
      refine hdb.of_shown ?_ (updateTabGroup_shown hrequest hhides)
      simp only [LayoutAction.request, updateTabGroup, bind_eq_ok, pure_eq_ok] at hrequest
      obtain ⟨-, -, -, -, -, -, -, -, rfl⟩ := hrequest
      rfl
    | updateGroup groupId p =>
      refine hdb.of_shown ?_ (updateGroup_shown hrequest hhides)
      simp only [LayoutAction.request, updateGroup, bind_eq_ok, pure_eq_ok] at hrequest
      obtain ⟨-, -, rfl⟩ := hrequest
      rfl
    | bulkSave orderId groupId rows tabGroupId => exact bulkSave_shown hdb hrequest hhides

/-- **No row is hidden** in any state of a run, as long as each request sees to what the guard leaves open. -/
theorem no_row_hidden (hdb : NoRowHidden db) {as : List LayoutAction}
    (hmeets : Meets (layoutStep fromIsoFormat) HidesNoRow db as) : NoRowHidden (run (layoutStep fromIsoFormat) db as) :=
  run_invariant_of_meets NoRowHidden layoutStep_noRowHidden hdb hmeets

end

/-- The booking form with a second tab, and one order. -/
def orderedForm : ConfigDb := { unpublishedForm with
  tabs := unpublishedForm.tabs.insert ⟨"delivery", "Delivery", some 1, 20, true, false, none⟩
  orders := Table.empty.insert ⟨none, 1⟩ }

theorem orderedForm_noRowHidden : NoRowHidden orderedForm := by
  intro groupId _ orderId
  exact Nat.zero_le 1

/-- A new row for one container. -/
def containerRow (number : String) : RowPayload := ⟨"", [("container-no", .str number)]⟩

/-- One record is refused while an order has two rows, and accepted once it has one. -/
def layoutsInTurn : List LayoutAction :=
  [.bulkSave 1 1 [containerRow "MSKU1", containerRow "MSKU2"] (some 1),
    .updateTabGroup 1 { LayoutPayload.empty with displayMode := some "form_only" },
    .bulkSave 1 1 [⟨"2", [("container-no", .str "MSKU3")]⟩] none,
    .updateTabGroup 1 { LayoutPayload.empty with displayMode := some "form_only" },
    .updateGroup 1 ⟨none, none, some .form, none, none⟩,
    .addTabGroup 2 1 LayoutPayload.empty,
    .bulkSave 1 1 [containerRow "MSKU4"] (some 2)]

theorem no_row_hidden_layoutsInTurn : NoRowHidden (run (layoutStep fun _ => false) orderedForm layoutsInTurn) :=
  no_row_hidden orderedForm_noRowHidden (by decide +kernel)

/-- Two rows are saved in a table; the group becomes a form, and a second tab shows it as one. -/
def secondRowHidden : List LayoutAction :=
  [.bulkSave 1 1 [containerRow "MSKU1", containerRow "MSKU2"] (some 1),
    .updateGroup 1 ⟨none, none, some .form, none, none⟩,
    .addTabGroup 2 1 LayoutPayload.empty]

theorem second_row_is_hidden :
    ¬∀ as, NoRowHidden (run (layoutStep fun _ => false) orderedForm as) := by
  intro h
  have htwo : ShownSingle (run (layoutStep fun _ => false) orderedForm secondRowHidden) 1 ∧
      (shownRows (run (layoutStep fun _ => false) orderedForm secondRowHidden) 1 1).length = 2 := by decide +kernel
  have hone := h secondRowHidden 1 htwo.1 1
  rw [htwo.2] at hone
  omega

end LcsSystem
