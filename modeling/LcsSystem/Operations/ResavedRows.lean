import LcsSystem.Operations.StoredValues
import LcsSystem.Operations.RowExactness
import LcsSystem.Operations.ShownForms

/-!
# Saving a form as it was read

`bulk_save` of `src/backend/app/modules/operations/component_tabs.py:456-561` for a client that sends back the rows that
`bootstrap` or `list_rows` showed it after a save: all of them pass, and nothing is written.
-/

namespace LcsSystem
open Relational Checks

/-- The constraints on the fields of groups: no two attributes have one code, and no group has an attribute twice. -/
structure OneFieldPerCode (config : Configuration) : Prop where
  attributes : ∀ {i j a b}, config.attributes.get? i = some a → config.attributes.get? j = some b → a.code = b.code →
    i = j
  memberships : ∀ {i j m n}, config.memberships.get? i = some m → config.memberships.get? j = some n →
    m.groupId = n.groupId → m.attributeId = n.attributeId → i = j

theorem OneFieldPerCode.codes {config : Configuration} (h : OneFieldPerCode config) (groupId : ℕ) :
    ((groupAttributes config groupId).map fun member => member.2.2.code).Nodup := by
  have hrows : ((config.memberships.select fun membership =>
      (membership.groupId == groupId && membership.isVisible) && membership.status == "ACTIVE").insertionSort
        (displayOrder ComponentGroupAttribute.displayOrder)).Nodup :=
    (List.perm_insertionSort _ _).nodup_iff.2 ((List.Nodup.of_map _ config.memberships.nodup).filter _)
  rw [groupAttributes, activeMemberships, List.Nodup, List.pairwise_map, List.pairwise_filterMap]
  refine hrows.imp_of_mem fun {m n} hm hn hne x hx y hy hcode => hne ?_
  rw [List.mem_insertionSort, Table.mem_select] at hm hn
  obtain ⟨hgetm, hm⟩ := hm
  obtain ⟨hgetn, hn⟩ := hn
  simp only [Bool.and_eq_true, beq_iff_eq] at hm hn
  obtain ⟨a, ha, rfl⟩ := Option.map_eq_some_iff.1 hx
  obtain ⟨b, hb, rfl⟩ := Option.map_eq_some_iff.1 hy
  have hattribute := h.attributes (Option.filter_eq_some_iff.1 ha).1 (Option.filter_eq_some_iff.1 hb).1 hcode
  have hid := h.memberships hgetm hgetn (hm.1.1.trans hn.1.1.symm) hattribute
  rw [hid, hgetn, Option.some.injEq] at hgetm
  exact Prod.ext hid hgetm.symm

/-! ## The rows that are read -/

theorem shownRowOrder_total (a b : ℕ × ComponentRow) : shownRowOrder a b ∨ shownRowOrder b a := by
  unfold shownRowOrder
  omega

theorem shownRowOrder_trans {a b c : ℕ × ComponentRow} (hab : shownRowOrder a b) (hbc : shownRowOrder b c) :
    shownRowOrder a c := by
  unfold shownRowOrder at *
  omega

instance total_shownRowOrder : Std.Total shownRowOrder := ⟨shownRowOrder_total⟩
instance trans_shownRowOrder : IsTrans (ℕ × ComponentRow) shownRowOrder := ⟨fun _ _ _ => shownRowOrder_trans⟩

/-- A form shows the rows of a group that `list_rows` lists, in the same order. -/
theorem rowsByGroup_eq (db : ConfigDb) (orderId groupId : ℕ) :
    rowsByGroup db orderId groupId = (listRows db.rows orderId groupId).map rowPayload := by
  have hselect : (db.rows.select fun row => row.serviceOrderId == orderId && !row.isArchived).filter
      (fun row => row.2.groupId == groupId) = db.rows.select (isShownRow orderId groupId) := by
    rw [Table.select, Table.select, List.filter_filter]
    refine List.filter_congr fun row _ => ?_
    simp only [isShownRow, inGroup]
    cases row.2.serviceOrderId == orderId <;> cases row.2.groupId == groupId <;> rfl
  have hlisted : ∀ row, row ∈ listRows db.rows orderId groupId ↔
      db.rows.get? row.1 = some row.2 ∧ isShownRow orderId groupId row.2 = true := by
    intro row
    rw [listRows, List.mem_insertionSort, Table.mem_select]
  rw [rowsByGroup, filter_insertionSort, hselect]
  congr 1
  refine Table.insertionSort_select (fun a b hab hba => ?_) ?_ ?_ fun id a => hlisted (id, a)
  · unfold shownRowOrder at hab hba
    omega
  · exact ((List.perm_insertionSort _ _).map _).nodup_iff.2 (db.rows.nodup.sublist (List.filter_sublist.map _))
  · refine (List.pairwise_insertionSort rowOrder _).imp_of_mem fun {a b} ha hb hab => .inr ⟨?_, hab⟩
    have hgroup : ∀ row ∈ listRows db.rows orderId groupId, row.2.groupId = groupId := by
      intro row hrow
      have hscope := ((hlisted row).1 hrow).2
      simp only [isShownRow, inGroup, Bool.and_eq_true, beq_iff_eq] at hscope
      exact hscope.1.2
    rw [hgroup a ha, hgroup b hb]

/-- What a client sends back when it saves what it was shown. -/
def readRows (db : ConfigDb) (orderId groupId : ℕ) : List RowPayload :=
  (rowsByGroup db orderId groupId).map fun shown => ⟨toString shown.id, shown.values⟩

section
variable {fromIsoFormat : String → Bool} {referenceIds : String → List ℤ} {members : List FieldMember}
  {stored : List (ℕ × ComponentRow)} {orderId groupId : ℕ} {versionId : Option ℕ}

theorem existingRow_read {row : ℕ × ComponentRow} (hkeys : (stored.map Prod.fst).Nodup) (hrow : row ∈ stored)
    (values : List (String × Json)) : existingRow stored ⟨toString row.1, values⟩ = some row := by
  rw [existingRow, if_neg fun hempty => toString_ne_nil row.1 (congrArg String.toList hempty)]
  cases hfind : stored.find? fun other => toString other.1 == toString row.1 with
  | none => exact absurd (List.find?_eq_none.1 hfind row hrow) (by simp)
  | some other =>
    have hid := List.find?_some hfind
    rw [beq_iff_eq] at hid
    rw [List.inj_on_of_nodup_map hkeys (List.mem_of_find?_eq_some hfind) hrow (toString_nat_injective hid)]

/-- A row that is sent as it stands, when it has passed. -/
def passedAgain (row : (ℕ × ComponentRow) × ℕ) : ValidatedRow := ⟨some row.1, row.1.2.values, row.2⟩

/-- Rows that are sent as they stand pass as they stand. -/
theorem validateRows_read (hkeys : (stored.map Prod.fst).Nodup) {rows : List (ℕ × ComponentRow)}
    (hrows : ∀ row ∈ rows, row ∈ stored ∧
      validateValues fromIsoFormat referenceIds members row.2.values row.2.values = .ok row.2.values)
    (hnodup : (rows.map Prod.fst).Nodup) (seen : List String) (hseen : ∀ row ∈ rows, toString row.1 ∉ seen) (index : ℕ) :
    validateRows fromIsoFormat referenceIds members stored seen index
      (rows.map fun row => ⟨toString row.1, row.2.values⟩) =
        ((rows.zipIdx index).map passedAgain).map .ok := by
  induction rows generalizing seen index with
  | nil => rfl
  | cons row rows ih =>
    rw [List.forall_mem_cons] at hrows hseen
    rw [List.map_cons, List.nodup_cons] at hnodup
    have hfresh : ∀ other ∈ rows, toString other.1 ∉ toString row.1 :: seen := by
      intro other hother hmem
      rcases List.mem_cons.1 hmem with hsame | hmem
      · exact hnodup.1 (toString_nat_injective hsame ▸ List.mem_map_of_mem hother)
      · exact hseen.2 other hother hmem
    have hrow : validateRow fromIsoFormat referenceIds members stored seen index ⟨toString row.1, row.2.values⟩ =
        .ok ⟨some row, row.2.values, index⟩ := by
      rw [validateRow, if_neg (fun hdup => hseen.1 hdup.2), existingRow_read hkeys hrows.1.1, Option.map_some,
        Option.getD_some, hrows.1.2]
    rw [List.map_cons, validateRows, hrow, ih hrows.2 hnodup.2 _ hfresh, List.zipIdx_cons, List.map_cons,
      List.map_cons]
    rfl

theorem filterMap_toOption (rows : List ValidatedRow) :
    (rows.map (Except.ok : ValidatedRow → Except (List (String × String)) ValidatedRow)).filterMap Except.toOption =
      rows := by
  simp [List.filterMap_map, Function.comp_def, Except.toOption]

/-- Writes that leave every row as it stands. -/
theorem foldl_writeRow_read {t : Table ComponentRow} {rows : List ((ℕ × ComponentRow) × ℕ)}
    (h : ∀ row ∈ rows, t.get? row.1.1 = some row.1.2 ∧ row.1.2.rowNo = row.2) :
    (rows.map passedAgain).foldl (writeRow orderId groupId versionId) t = t := by
  induction rows with
  | nil => rfl
  | cons row rows ih =>
    rw [List.forall_mem_cons] at h
    have hwrite : writeRow orderId groupId versionId t (passedAgain row) = t := by
      refine Table.modify_eq_self h.1.1 ?_
      rw [show (passedAgain row).index = row.1.2.rowNo from h.1.2.symm]
      rfl
    rw [List.map_cons, List.foldl_cons, hwrite, ih h.2]

/-- Nothing is deleted where every row of the group is kept. -/
theorem clearRows_eq_self {t : Table ComponentRow} {kept : List ℕ}
    (h : ∀ id a, t.get? id = some a → (a.serviceOrderId == orderId && a.groupId == groupId) = true → id ∈ kept) :
    clearRows t orderId groupId kept = t := by
  refine Table.ext (List.filter_eq_self.2 fun row hrow => ?_) rfl
  have hkept := h row.1 row.2 (Table.get?_eq_some.2 hrow)
  cases hscope : row.2.serviceOrderId == orderId && row.2.groupId == groupId with
  | false => simp [hscope]
  | true => simp [hkept hscope]

/-! ## The rows that a save left -/

variable {db db' : ConfigDb} {items : List RowPayload} {validated : List ValidatedRow} {ids : List ℕ}
  {tabGroupId : Option ℕ} {rows : Table ComponentRow}

theorem rowNos_placed (h : SavedRows fromIsoFormat db orderId groupId items validated ids versionId rows) :
    (SavedRows.placed orderId groupId versionId validated ids).map (fun row => row.2.rowNo) =
      List.range' 1 items.length := by
  rw [← List.zipIdx_map_snd]
  refine (Pairings.map_eq_of_forall₂ h.forall₂_placed ?_).symm
  rintro item row ⟨checked, id, hchecked, -, rfl⟩
  rw [← hchecked.index, rowNo_writtenRow]

/-- A row stands in the group if and only if the save wrote it. -/
theorem mem_placed (h : SavedRows fromIsoFormat db orderId groupId items validated ids versionId rows) {id : ℕ}
    {row : ComponentRow} : (id, row) ∈ SavedRows.placed orderId groupId versionId validated ids ↔
      rows.get? id = some row ∧ inGroup orderId groupId row = true := by
  have hplaced : ∀ {id row}, (id, row) ∈ SavedRows.placed orderId groupId versionId validated ids →
      rows.get? id = some row ∧ inGroup orderId groupId row = true := by
    intro id row hmem
    obtain ⟨⟨checked, id'⟩, hzip, heq⟩ := List.mem_map.1 hmem
    cases heq
    obtain ⟨item, -, -, hunder⟩ := Pairings.exists_of_forall₂ (Pairings.forall₂_zip h.checked h.written.written) hzip
    refine ⟨hunder.1, ?_⟩
    cases hexisting : checked.existing with
    | none => simp [writtenRow, hexisting, inGroup]
    | some old => simpa [writtenRow, hexisting, inGroup] using (h.existing_inGroup (List.of_mem_zip hzip).1 hexisting).2
  refine ⟨hplaced, fun hrow => ?_⟩
  have hmem := h.mem_ids hrow.1 hrow.2
  rw [← h.map_fst_placed] at hmem
  obtain ⟨⟨id', other⟩, hother, rfl⟩ := List.mem_map.1 hmem
  have hsame := (hplaced hother).1
  rw [hrow.1, Option.some.injEq] at hsame
  exact hsame ▸ hother

/-- Where no row of the group is archived, the rows that are listed are those that the save wrote. -/
theorem listRows_placed (h : SavedRows fromIsoFormat db orderId groupId items validated ids versionId rows)
    (hshown : ∀ id row, rows.get? id = some row → inGroup orderId groupId row = true → row.isArchived = false) :
    listRows rows orderId groupId = SavedRows.placed orderId groupId versionId validated ids := by
  refine Table.insertionSort_select (fun a b hab hba => ?_) ?_ h.pairwise_placed fun id row => ?_
  · simp only [rowOrder] at hab hba
    omega
  · rw [h.map_fst_placed]
    exact h.written.nodup
  · rw [mem_placed h, isShownRow, Bool.and_eq_true, Bool.not_eq_true']
    exact and_congr_right fun hget => ⟨fun hscope => ⟨hscope, hshown id row hget hscope⟩, And.left⟩

/-- Writing the rows of the group as they stand. -/
theorem writeRows_passedAgain {rows : Table ComponentRow} {written : List (ℕ × ComponentRow)} {n : ℕ}
    (hmem : ∀ {id row}, (id, row) ∈ written ↔ rows.get? id = some row ∧ inGroup orderId groupId row = true)
    (hnumbers : written.map (fun row => row.2.rowNo) = List.range' 1 n) (versionId : Option ℕ) :
    writeRows rows orderId groupId versionId ((written.zipIdx 1).map passedAgain) = rows := by
  have hplaces : ∀ row ∈ written.zipIdx 1, rows.get? row.1.1 = some row.1.2 ∧ row.1.2.rowNo = row.2 := by
    intro row hrow
    obtain ⟨hle, hlt, hget⟩ := List.mem_zipIdx hrow
    refine ⟨(hmem.1 (List.fst_mem_of_mem_zipIdx hrow)).1, ?_⟩
    have hnumber := List.getElem_of_eq hnumbers (i := row.2 - 1) (by rw [List.length_map]; omega)
    rw [List.getElem_map, ← hget, List.getElem_range'] at hnumber
    omega
  have hkept : keptIds ((written.zipIdx 1).map passedAgain) = written.map Prod.fst := by
    rw [keptIds, List.filterMap_map]
    conv_rhs => rw [← List.zipIdx_map_fst 1 written, List.map_map, ← List.filterMap_eq_map]
    rfl
  have hclear : clearRows rows orderId groupId (written.map Prod.fst) = rows :=
    clearRows_eq_self fun id row hget hscope => List.mem_map_of_mem (hmem.2 ⟨hget, hscope⟩)
  rw [writeRows, hkept, hclear, foldl_writeRow_read hplaces]

theorem keys_storedRows (db : ConfigDb) (orderId groupId : ℕ) : ((storedRows db orderId groupId).map Prod.fst).Nodup :=
  db.rows.nodup.sublist (List.filter_sublist.map _)

/-- What the rows that a save wrote are when they are sent as they stand. -/
theorem placed_passes (hfields : OneFieldPerCode db.toConfiguration)
    (h : SavedRows fromIsoFormat db orderId groupId items validated ids versionId rows) :
    ∀ row ∈ SavedRows.placed orderId groupId versionId validated ids,
      validateValues fromIsoFormat (fun type => db.referenceIds type orderId) (groupAttributes db.toConfiguration groupId)
        row.2.values row.2.values = .ok row.2.values := by
  intro row hrow
  obtain ⟨item, -, checked, id, hchecked, -, rfl⟩ := Pairings.exists_of_forall₂ h.forall₂_placed hrow
  rw [values_writtenRow]
  exact validateValues_stored (hfields.codes groupId) hchecked.values

/-- A save of what was read that changes nothing has read every row. -/
theorem shown_of_bulkSave_read
    (h : bulkSave fromIsoFormat db orderId groupId (readRows db orderId groupId) tabGroupId = .ok db)
    {id : ℕ} {row : ComponentRow} (hrow : db.rows.get? id = some row) (hscope : inGroup orderId groupId row = true) :
    row.isArchived = false := by
  obtain ⟨-, validated, ids, versionId, hsaved⟩ := savedRows_of_ok h
  rcases mem_ids hsaved.written.written (hsaved.mem_ids hrow hscope) with hkept | hnew
  · obtain ⟨checked, hvalidated, hnamed⟩ := List.mem_filterMap.1 hkept
    obtain ⟨old, hold, rfl⟩ := Option.map_eq_some_iff.1 hnamed
    obtain ⟨item, hitem, hchecked⟩ := Pairings.exists_of_forall₂ hsaved.checked hvalidated
    have hid := (toString_of_existingRow (hchecked.existing.symm.trans hold)).2
    obtain ⟨shown, hshown, hread⟩ := List.mem_map.1 (List.fst_mem_of_mem_zipIdx hitem)
    rw [rowsByGroup_eq] at hshown
    obtain ⟨listed, hlisted, rfl⟩ := List.mem_map.1 hshown
    obtain ⟨hget, hvisible⟩ := Table.mem_select.1 ((List.mem_insertionSort rowOrder).1 hlisted)
    rw [← hread] at hid
    rw [toString_nat_injective hid, show (rowPayload listed).id = listed.1 from rfl, hget, Option.some.injEq] at hrow
    rw [isShownRow, Bool.and_eq_true, Bool.not_eq_true'] at hvisible
    exact hrow ▸ hvisible.2
  · exact absurd (Table.lt_nextId hrow) (not_lt.2 hnew)

/-- **Saving what was read changes nothing**, if and only if no row of the group is archived: an archived row is not read,
so it is deleted. -/
theorem bulkSave_again_iff (hfields : OneFieldPerCode db.toConfiguration)
    (h : bulkSave fromIsoFormat db orderId groupId items tabGroupId = .ok db') :
    bulkSave fromIsoFormat db' orderId groupId (readRows db' orderId groupId) tabGroupId = .ok db' ↔
      ∀ id row, db'.rows.get? id = some row → inGroup orderId groupId row = true → row.isArchived = false := by
  refine ⟨fun hagain id row hrow hscope => shown_of_bulkSave_read hagain hrow hscope, fun hshown => ?_⟩
  obtain ⟨-, validated, ids, versionId, hsaved⟩ := savedRows_of_ok h
  simp only [bulkSave, bind_eq_ok, require_eq_ok, check_eq_ok, pure_eq_ok] at h
  obtain ⟨order, horder, group, hgroup, layout, hlayout, -, heditable, -, hsingle, -, -, hdb⟩ := h
  obtain ⟨rows, rfl⟩ : ∃ rows, db' = { db with rows := rows } := ⟨_, hdb.symm⟩
  have hnumbers := rowNos_placed hsaved
  have hread : readRows { db with rows := rows } orderId groupId =
      (SavedRows.placed orderId groupId versionId validated ids).map fun row => ⟨toString row.1, row.2.values⟩ := by
    rw [readRows, rowsByGroup_eq, listRows_placed hsaved hshown, List.map_map]
    rfl
  have hkeys : ((SavedRows.placed orderId groupId versionId validated ids).map Prod.fst).Nodup := by
    rw [hsaved.map_fst_placed]
    exact hsaved.written.nodup
  have hpasses : ∀ row ∈ SavedRows.placed orderId groupId versionId validated ids,
      row ∈ storedRows { db with rows := rows } orderId groupId ∧ _ :=
    fun row hrow => ⟨Table.mem_select.2 ((mem_placed hsaved).1 hrow), placed_passes hfields hsaved row hrow⟩
  have hchecked := validateRows_read (keys_storedRows { db with rows := rows } orderId groupId) hpasses hkeys []
    (fun row _ => List.not_mem_nil) 1
  have hlength : (SavedRows.placed orderId groupId versionId validated ids).length = items.length := by
    simpa using congrArg List.length hnumbers
  simp only [bulkSave, bind_eq_ok, require_eq_ok, check_eq_ok, pure_eq_ok]
  refine ⟨order, horder, group, hgroup, layout, hlayout, ⟨⟩, heditable, ⟨⟩, ?_, ⟨⟩, ?_, ?_⟩
  · rw [hread, List.length_map, hlength]
    exact hsingle
  · rw [hread, hchecked]
    exact List.flatMap_eq_nil_iff.2 fun checked hmem => by
      obtain ⟨row, -, rfl⟩ := List.mem_map.1 hmem
      rfl
  · rw [hread, hchecked, filterMap_toOption, writeRows_passedAgain (mem_placed hsaved) hnumbers]

end

theorem twoContainers_fields : OneFieldPerCode twoContainers.toConfiguration := by
  have hone : ∀ {α : Type} {x a : α} {id : ℕ}, (Table.empty.insert x).get? id = some a → id = 1 := by
    intro α x a id h
    rw [Table.get?_insert] at h
    split at h
    · next hid => exact hid
    · cases h
  exact ⟨fun hi hj _ => (hone hi).trans (hone hj).symm, fun hi hj _ _ => (hone hi).trans (hone hj).symm⟩

theorem bulkSave_again_iff_containersAgain :
    ∃ db', bulkSave (fun _ => false) twoContainers 1 1 containersAgain none = .ok db' ∧
      (readRows db' 1 1).map RowPayload.id = ["3", "1", "4"] ∧
      bulkSave (fun _ => false) db' 1 1 (readRows db' 1 1) none = .ok db' := by
  obtain ⟨db', hsave, hids, hlive⟩ := okAnd_eq_true.1
    (show okAnd (bulkSave (fun _ => false) twoContainers 1 1 containersAgain none) (fun db' =>
      (readRows db' 1 1).map RowPayload.id = ["3", "1", "4"] ∧ ∀ row ∈ db'.rows.rows, row.2.isArchived = false) = true by
        decide +kernel)
  exact ⟨db', hsave, hids, (bulkSave_again_iff twoContainers_fields hsave).2 fun id row hrow _ =>
    hlive _ (Table.get?_eq_some.1 hrow)⟩

end LcsSystem
