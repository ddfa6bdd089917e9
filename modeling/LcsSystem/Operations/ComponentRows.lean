import LcsSystem.Operations.ComponentValues

/-!
# Saving the rows of a group

`bulk_save` of `src/backend/app/modules/operations/component_tabs.py:456-561`: the rows that one order has in one
group are replaced by the submitted ones; a submitted row that names a stored one updates it. Who created and
updated a row is left out.
-/

namespace LcsSystem
open Relational Checks

/-- A submitted row: the id that it names, if any, and its values. -/
structure RowPayload where
  id : String
  values : List (String × Json)
  deriving DecidableEq

/-- The rows that an order has in a group, archived ones too. -/
def storedRows (db : ConfigDb) (orderId groupId : ℕ) : List (ℕ × ComponentRow) :=
  db.rows.select fun row => row.serviceOrderId == orderId && row.groupId == groupId

/-- `existing_by_id.get(row_id)`. -/
def existingRow (stored : List (ℕ × ComponentRow)) (item : RowPayload) : Option (ℕ × ComponentRow) :=
  if item.id = "" then none else stored.find? fun row => toString row.1 == item.id

/-- A submitted row that passed its checks. -/
structure ValidatedRow where
  existing : Option (ℕ × ComponentRow)
  values : List (String × Json)
  index : ℕ

section
variable (fromIsoFormat : String → Bool)

/-- The row at `index`, given the ids of the rows before it. -/
def validateRow (referenceIds : String → List ℤ) (members : List (ComponentGroupAttribute × (ℕ × ComponentAttribute)))
    (stored : List (ℕ × ComponentRow)) (seen : List String) (index : ℕ) (item : RowPayload) :
    Except (List (String × String)) ValidatedRow :=
  if item.id ≠ "" ∧ item.id ∈ seen then .error [(toString index ++ ".id", "Duplicate row")]
  else
    match validateValues fromIsoFormat referenceIds members item.values
      (((existingRow stored item).map fun row => row.2.values).getD []) with
    | .ok values => .ok ⟨existingRow stored item, values, index⟩
    | .error errors => .error (errors.map fun e => (toString index ++ "." ++ e.1, e.2))

/-- The rows from `index` on, each checked. -/
def validateRows (referenceIds : String → List ℤ) (members : List (ComponentGroupAttribute × (ℕ × ComponentAttribute)))
    (stored : List (ℕ × ComponentRow)) : List String → ℕ → List RowPayload →
    List (Except (List (String × String)) ValidatedRow)
  | _, _, [] => []
  | seen, index, item :: items =>
    validateRow fromIsoFormat referenceIds members stored seen index item ::
      validateRows referenceIds members stored (item.id :: seen) (index + 1) items

def rowErrors : Except (List (String × String)) ValidatedRow → List (String × String)
  | .error errors => errors
  | .ok _ => []

/-- The layout that a save goes by: the one of the assignment it names, else what the render mode meant. -/
def saveLayout (db : ConfigDb) (groupId : ℕ) (group : ComponentGroup) : Option ℕ → Result Layout
  | some tabGroupId => do
    let link ← require ((db.tabGroups.get? tabGroupId).filter fun link => link.groupId == groupId)
      (.invalid "The group does not belong to that tab." [("tabGroupId", "Mismatch")])
    return resolveLayout link group
  | none => .ok group.renderMode.legacyLayout

/-- `kept_ids`. -/
def keptIds (rows : List ValidatedRow) : List ℕ := rows.filterMap fun row => row.existing.map Prod.fst

/-- The rows that an order has in a group are deleted, but for those that are kept. -/
def clearRows (rows : Table ComponentRow) (orderId groupId : ℕ) (kept : List ℕ) : Table ComponentRow :=
  rows.erase fun id row => row.serviceOrderId == orderId && row.groupId == groupId && !kept.contains id

/-- A row that is kept gets its new values and number, any other is inserted. -/
def writeRow (orderId groupId : ℕ) (versionId : Option ℕ) (rows : Table ComponentRow) (row : ValidatedRow) :
    Table ComponentRow :=
  match row.existing with
  | some (id, _) => rows.modify id fun stored => { stored with values := row.values, rowNo := row.index }
  | none => rows.insert ⟨orderId, groupId, row.index, false, row.values, versionId⟩

def writeRows (rows : Table ComponentRow) (orderId groupId : ℕ) (versionId : Option ℕ) (validated : List ValidatedRow) :
    Table ComponentRow :=
  validated.foldl (writeRow orderId groupId versionId) (clearRows rows orderId groupId (keptIds validated))

/-- `bulk_save`. -/
def bulkSave (db : ConfigDb) (orderId groupId : ℕ) (rows : List RowPayload) (tabGroupId : Option ℕ) : Result ConfigDb := do
  let order ← require (db.orders.get? orderId) (.notFound "Service order not found.")
  let group ← require (db.groups.get? groupId) (.notFound "Component group not found.")
  let layout ← saveLayout db groupId group tabGroupId
  check (layout.editable = true) (.invalid "This group is configured as read-only." [("rows", "This group is read-only.")])
  check (layout.isSingle = false ∨ rows.length ≤ 1) (.invalid "This group allows a single record only."
    [("rows", "Only one record is allowed in this group.")])
  let checked := validateRows fromIsoFormat (fun type => db.referenceIds type orderId)
    (groupAttributes db.toConfiguration groupId) (storedRows db orderId groupId) [] 1 rows
  check (checked.flatMap rowErrors = []) (.invalid "Some rows are invalid." (checked.flatMap rowErrors))
  return { db with
    rows := writeRows db.rows orderId groupId order.configurationVersionId (checked.filterMap Except.toOption) }

end

/-! ## What a save writes -/

section
variable {fromIsoFormat : String → Bool} {referenceIds : String → List ℤ}
  {members : List (ComponentGroupAttribute × (ℕ × ComponentAttribute))} {stored : List (ℕ × ComponentRow)}

theorem existing_of_validateRow {seen : List String} {index : ℕ} {item : RowPayload} {row : ValidatedRow}
    (h : validateRow fromIsoFormat referenceIds members stored seen index item = .ok row) :
    row.existing = existingRow stored item := by
  unfold validateRow at h
  split at h
  · cases h
  · split at h
    · cases h
      rfl
    · cases h

/-- The rows that pass name the stored rows that the submitted ones name, in their order. -/
theorem existing_validateRows_sublist (fromIsoFormat : String → Bool) (referenceIds : String → List ℤ)
    (members : List (ComponentGroupAttribute × (ℕ × ComponentAttribute))) (stored : List (ℕ × ComponentRow))
    (seen : List String) (index : ℕ) (items : List RowPayload) :
    List.Sublist (((validateRows fromIsoFormat referenceIds members stored seen index items).filterMap Except.toOption).map
      ValidatedRow.existing) (items.map (existingRow stored)) := by
  induction items generalizing seen index with
  | nil => exact List.Sublist.refl _
  | cons item items ih =>
    have ih := ih (item.id :: seen) (index + 1)
    cases hrow : validateRow fromIsoFormat referenceIds members stored seen index item with
    | error errors =>
      simp only [validateRows, hrow, List.filterMap_cons, Except.toOption, List.map_cons]
      exact ih.cons _
    | ok row =>
      simp only [validateRows, hrow, List.filterMap_cons, Except.toOption, List.map_cons, existing_of_validateRow hrow]
      exact ih.cons_cons _

theorem existingRow_mem {item : RowPayload} {row : ℕ × ComponentRow}
    (h : existingRow stored item = some row) : row ∈ stored := by
  unfold existingRow at h
  split at h
  · cases h
  · exact List.mem_of_find?_eq_some h

/-- A row that passed is a submitted one with its checked values. -/
theorem mem_validateRows {seen : List String} {index : ℕ} {items : List RowPayload} {row : ValidatedRow}
    (h : row ∈ (validateRows fromIsoFormat referenceIds members stored seen index items).filterMap Except.toOption) :
    ∃ item ∈ items, row.existing = existingRow stored item ∧
      validateValues fromIsoFormat referenceIds members item.values
        (((existingRow stored item).map fun row => row.2.values).getD []) = .ok row.values := by
  induction items generalizing seen index with
  | nil => cases h
  | cons item items ih =>
    simp only [validateRows, List.filterMap_cons] at h
    cases hrow : validateRow fromIsoFormat referenceIds members stored seen index item with
    | error errors =>
      simp only [hrow, Except.toOption] at h
      obtain ⟨other, hother, hspec⟩ := ih h
      exact ⟨other, List.mem_cons_of_mem _ hother, hspec⟩
    | ok checked =>
      simp only [hrow, Except.toOption, List.mem_cons] at h
      rcases h with rfl | h
      · refine ⟨item, List.mem_cons_self, existing_of_validateRow hrow, ?_⟩
        unfold validateRow at hrow
        split at hrow
        · cases hrow
        · split at hrow
          · next hvalues =>
            cases hrow
            exact hvalues
          · cases hrow
      · obtain ⟨other, hother, hspec⟩ := ih h
        exact ⟨other, List.mem_cons_of_mem _ hother, hspec⟩

/-- A value of a checked row was stored before, or it is one of a field of the group. -/
theorem key_of_validateValues {provided existing values : List (String × Json)}
    (h : validateValues fromIsoFormat referenceIds members provided existing = .ok values) {entry : String × Json}
    (hentry : entry ∈ values) : entry ∈ existing ∨ ∃ member ∈ members, member.2.2.code = entry.1 := by
  simp only [validateValues] at h
  split at h
  · rw [Except.ok.injEq] at h
    rw [← h, List.mem_append] at hentry
    rcases hentry with hold | hnew
    · exact .inl (List.mem_filter.1 hold).1
    · right
      obtain ⟨field, hfield, hvalue⟩ := List.mem_filterMap.1 hnew
      obtain ⟨member, hmember, rfl⟩ := List.mem_map.1 hfield
      refine ⟨member, hmember, ?_⟩
      split at hvalue
      · cases hvalue
        rfl
      · cases hvalue
  · cases h

/-- The stored rows that rows name belong to the order and the group. -/
def NamesOwnRows (orderId groupId : ℕ) (t : Table ComponentRow) (validated : List ValidatedRow) : Prop :=
  ∀ row ∈ validated, ∀ stored ∈ row.existing, ∀ old, t.get? stored.1 = some old →
    old.serviceOrderId = orderId ∧ old.groupId = groupId

section
variable {orderId groupId : ℕ} {versionId : Option ℕ} {validated : List ValidatedRow} {t : Table ComponentRow} {id : ℕ}
  {r : ComponentRow}

theorem NamesOwnRows.writeRow {row : ValidatedRow} (h : NamesOwnRows orderId groupId t (row :: validated)) :
    NamesOwnRows orderId groupId (writeRow orderId groupId versionId t row) validated := by
  intro other hother stored hstored old hold
  have hown := h other (List.mem_cons_of_mem _ hother) stored hstored
  unfold LcsSystem.writeRow at hold
  split at hold
  · rw [Table.get?_modify] at hold
    split at hold
    · obtain ⟨before, hbefore, rfl⟩ := Option.map_eq_some_iff.1 hold
      exact hown before hbefore
    · exact hown old hold
  · rw [Table.get?_insert] at hold
    split at hold
    · cases hold
      exact ⟨rfl, rfl⟩
    · exact hown old hold

/-- A row after the writes is as it was before them, or it is one of the group with the values of one that passed. -/
theorem get?_foldl_writeRow (hown : NamesOwnRows orderId groupId t validated)
    (h : (validated.foldl (writeRow orderId groupId versionId) t).get? id = some r) :
    t.get? id = some r ∨ (r.serviceOrderId = orderId ∧ r.groupId = groupId) ∧
      ∃ row ∈ validated, r.values = row.values ∧ ∀ stored ∈ row.existing, stored.1 = id := by
  induction validated generalizing t with
  | nil => exact .inl h
  | cons row validated ih =>
    rcases ih hown.writeRow h with hget | ⟨hscope, other, hother, hspec⟩
    · unfold writeRow at hget
      split at hget
      · next i stored hexisting =>
        rw [Table.get?_modify] at hget
        split at hget
        · next hid =>
          obtain ⟨old, hold, rfl⟩ := Option.map_eq_some_iff.1 hget
          have hscope := hown row List.mem_cons_self _ hexisting old (hid ▸ hold)
          refine .inr ⟨hscope, row, List.mem_cons_self, rfl, ?_⟩
          rintro s hs
          rw [hexisting, Option.mem_some_iff] at hs
          rw [← hs, hid]
        · exact .inl hget
      · next hexisting =>
        rw [Table.get?_insert] at hget
        split at hget
        · cases hget
          refine .inr ⟨⟨rfl, rfl⟩, row, List.mem_cons_self, rfl, ?_⟩
          rintro s hs
          rw [hexisting] at hs
          cases hs
        · exact .inl hget
    · exact .inr ⟨hscope, other, List.mem_cons_of_mem _ hother, hspec⟩

/-- A row after a save is as it was before, or it is one of the group with the values of one that passed. -/
theorem get?_writeRows {rows : Table ComponentRow}
    (hexisting : ∀ row ∈ validated, ∀ stored ∈ row.existing, rows.get? stored.1 = some stored.2 ∧
      stored.2.serviceOrderId = orderId ∧ stored.2.groupId = groupId)
    (h : (writeRows rows orderId groupId versionId validated).get? id = some r) :
    rows.get? id = some r ∨ (r.serviceOrderId = orderId ∧ r.groupId = groupId) ∧
      ∃ row ∈ validated, r.values = row.values ∧ ∀ stored ∈ row.existing, stored.1 = id := by
  have hcleared : ∀ {i old}, (clearRows rows orderId groupId (keptIds validated)).get? i = some old →
      rows.get? i = some old := by
    intro i old hold
    rw [clearRows, Table.get?_erase, Option.filter_eq_some_iff] at hold
    exact hold.1
  refine (get?_foldl_writeRow ?_ h).imp_left hcleared
  intro row hrow stored hstored old hold
  obtain ⟨hget, hscope⟩ := hexisting row hrow stored hstored
  rw [hcleared hold, Option.some.injEq] at hget
  exact hget ▸ hscope

end
end

end LcsSystem
