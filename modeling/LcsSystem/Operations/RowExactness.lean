import LcsSystem.Lib.Listing
import LcsSystem.Lib.Pairings
import LcsSystem.Core.Cache
import LcsSystem.MasterData.VersionRuns
import LcsSystem.Operations.ComponentRows

/-!
# The rows of a group after a save

What `list_rows` (`src/backend/app/modules/operations/component_tabs.py:434-453`) shows after a `bulk_save`: the
submitted rows in their order. `list_rows` leaves archived rows out; the query at 496-503 does not, so that a save
deletes them.
-/

namespace LcsSystem
open Relational Checks

/-! ## What is shown -/

def inGroup (orderId groupId : ℕ) (row : ComponentRow) : Bool := row.serviceOrderId == orderId && row.groupId == groupId

/-- The filter of `list_rows`. -/
def isShownRow (orderId groupId : ℕ) (row : ComponentRow) : Bool := inGroup orderId groupId row && !row.isArchived

/-- By `row_no`, then by id. -/
def rowOrder (a b : ℕ × ComponentRow) : Prop := a.2.rowNo < b.2.rowNo ∨ a.2.rowNo = b.2.rowNo ∧ a.1 ≤ b.1

instance : DecidableRel rowOrder := fun _ _ => inferInstanceAs (Decidable (_ ∨ _ ∧ _))

instance : Std.Total rowOrder := ⟨fun a b => by
  simp only [rowOrder]
  omega⟩

instance : IsTrans (ℕ × ComponentRow) rowOrder := ⟨fun a b c hab hbc => by
  simp only [rowOrder] at hab hbc ⊢
  omega⟩

/-- `list_rows`: all of its pages. -/
def listRows (rows : Table ComponentRow) (orderId groupId : ℕ) : List (ℕ × ComponentRow) :=
  (rows.select (isShownRow orderId groupId)).insertionSort rowOrder

section
variable (fromIsoFormat : String → Bool)

/-- The submitted rows of a save, each checked. -/
def checkedRows (db : ConfigDb) (orderId groupId : ℕ) (items : List RowPayload) :
    List (Except (List (String × String)) ValidatedRow) :=
  validateRows fromIsoFormat (fun type => db.referenceIds type orderId) (groupAttributes db.toConfiguration groupId)
    (storedRows db orderId groupId) [] 1 items

/-- The rows that a request leaves: those that were there, unless it is accepted. -/
def rowsAfter (db : ConfigDb) : Result ConfigDb → Table ComponentRow
  | .ok db' => db'.rows
  | .error _ => db.rows

/-- The shown row that a submitted one names. -/
def namedRow (db : ConfigDb) (orderId groupId : ℕ) (item : RowPayload) : Option (ℕ × ComponentRow) :=
  existingRow (db.rows.select (isShownRow orderId groupId)) item

/-- The values of the shown row that a submitted one names. -/
def namedValues (db : ConfigDb) (orderId groupId : ℕ) (item : RowPayload) : List (String × Json) :=
  ((namedRow db orderId groupId item).map fun row => row.2.values).getD []

/-- A row stands for the submitted one at an index: it is the one that it names, or a new one, with the checked values,
and what it had under other codes. -/
structure StandsFor (db : ConfigDb) (orderId groupId : ℕ) (item : RowPayload × ℕ) (row : ℕ × ComponentRow) : Prop where
  rowNo : row.2.rowNo = item.2
  named : ∀ old ∈ namedRow db orderId groupId item.1, row.1 = old.1
  fresh : namedRow db orderId groupId item.1 = none → db.rows.get? row.1 = none
  values : validateValues fromIsoFormat (fun type => db.referenceIds type orderId)
    (groupAttributes db.toConfiguration groupId) item.1.values (namedValues db orderId groupId item.1) = .ok row.2.values
  retained : ∀ entry, (∀ member ∈ groupAttributes db.toConfiguration groupId, member.2.2.code ≠ entry.1) →
    (entry ∈ row.2.values ↔ entry ∈ namedValues db orderId groupId item.1)

/-- The shown rows are the submitted ones, numbered from 1 and each under an id of its own; no other row is touched. -/
structure RowsExact (db : ConfigDb) (orderId groupId : ℕ) (items : List RowPayload) (rows : Table ComponentRow) : Prop where
  shown : List.Forall₂ (StandsFor fromIsoFormat db orderId groupId) (items.zipIdx 1) (listRows rows orderId groupId)
  once : ((listRows rows orderId groupId).map Prod.fst).Nodup
  untouched : ∀ id row, isShownRow orderId groupId row = false → (rows.get? id = some row ↔ db.rows.get? id = some row)

end

section
variable {fromIsoFormat : String → Bool} {referenceIds : String → List ℤ}
  {members : List (ComponentGroupAttribute × (ℕ × ComponentAttribute))} {stored : List (ℕ × ComponentRow)}

/-! ## The checks -/

theorem validateValues_error {provided existing : List (String × Json)} {errors : List (String × String)}
    (h : validateValues fromIsoFormat referenceIds members provided existing = .error errors) : errors ≠ [] := by
  simp only [validateValues] at h
  split at h
  · cases h
  · next hne =>
    cases h
    exact hne

/-- A refused row has an error under its number. -/
theorem validateRow_error {seen : List String} {index : ℕ} {item : RowPayload} {errors : List (String × String)}
    (h : validateRow fromIsoFormat referenceIds members stored seen index item = .error errors) : errors ≠ [] := by
  unfold validateRow at h
  split at h
  · cases h
    simp
  · split at h
    · cases h
    · next hvalues =>
      cases h
      simpa using validateValues_error hvalues

/-- A row that passed is not one of those before it, and has the checked values. -/
theorem validateRow_ok {seen : List String} {index : ℕ} {item : RowPayload} {row : ValidatedRow}
    (h : validateRow fromIsoFormat referenceIds members stored seen index item = .ok row) :
    (item.id = "" ∨ item.id ∉ seen) ∧ row.index = index ∧ row.existing = existingRow stored item ∧
      validateValues fromIsoFormat referenceIds members item.values
        (((existingRow stored item).map fun row => row.2.values).getD []) = .ok row.values := by
  refine ⟨?_, ?_, existing_of_validateRow h, ?_⟩
  · by_contra hseen
    rw [not_or, not_not] at hseen
    rw [validateRow, if_pos hseen] at h
    cases h
  all_goals
    unfold validateRow at h
    split at h
    · cases h
    · split at h
      · next hvalues =>
        cases h
        first | rfl | exact hvalues
      · cases h

theorem mem_validateRows_error {seen : List String} {index : ℕ} {items : List RowPayload} {errors : List (String × String)}
    (h : .error errors ∈ validateRows fromIsoFormat referenceIds members stored seen index items) : errors ≠ [] := by
  induction items generalizing seen index with
  | nil => cases h
  | cons item items ih =>
    rcases List.mem_cons.1 h with hrow | h
    · exact validateRow_error hrow.symm
    · exact ih h

theorem toString_of_existingRow {item : RowPayload} {row : ℕ × ComponentRow} (h : existingRow stored item = some row) :
    item.id ≠ "" ∧ toString row.1 = item.id := by
  unfold existingRow at h
  split at h
  · cases h
  · next hid =>
    have htext := List.find?_some h
    exact ⟨hid, beq_iff_eq.1 htext⟩

/-- A submitted row and what its checks make of it. -/
structure CheckedAs (fromIsoFormat : String → Bool) (referenceIds : String → List ℤ)
    (members : List (ComponentGroupAttribute × (ℕ × ComponentAttribute))) (stored : List (ℕ × ComponentRow))
    (item : RowPayload × ℕ) (row : ValidatedRow) : Prop where
  index : row.index = item.2
  existing : row.existing = existingRow stored item.1
  values : validateValues fromIsoFormat referenceIds members item.1.values
    (((existingRow stored item.1).map fun row => row.2.values).getD []) = .ok row.values

/-- Without an error every row passes, and no stored row is named twice. -/
theorem validateRows_checked {seen : List String} {index : ℕ} {items : List RowPayload}
    (h : (validateRows fromIsoFormat referenceIds members stored seen index items).flatMap rowErrors = []) :
    List.Forall₂ (CheckedAs fromIsoFormat referenceIds members stored) (items.zipIdx index)
        ((validateRows fromIsoFormat referenceIds members stored seen index items).filterMap Except.toOption) ∧
      (keptIds ((validateRows fromIsoFormat referenceIds members stored seen index items).filterMap
        Except.toOption)).Nodup ∧
      ∀ id ∈ keptIds ((validateRows fromIsoFormat referenceIds members stored seen index items).filterMap
        Except.toOption), toString id ∉ seen := by
  induction items generalizing seen index with
  | nil => exact ⟨.nil, .nil, by simp [validateRows, keptIds]⟩
  | cons item items ih =>
    simp only [validateRows, List.flatMap_cons, List.append_eq_nil_iff] at h
    obtain ⟨hchecked, hnodup, hseen⟩ := ih h.2
    cases hrow : validateRow fromIsoFormat referenceIds members stored seen index item with
    | error errors =>
      rw [hrow] at h
      exact absurd h.1 (validateRow_error hrow)
    | ok row =>
      obtain ⟨hnew, hindex, hexisting, hvalues⟩ := validateRow_ok hrow
      simp only [validateRows, hrow, List.filterMap_cons, Except.toOption, List.zipIdx_cons]
      refine ⟨.cons ⟨hindex, hexisting, hvalues⟩ hchecked, ?_⟩
      cases hold : row.existing with
      | none =>
        simp only [keptIds, List.filterMap_cons, hold, Option.map_none]
        exact ⟨hnodup, fun id hid hmem => hseen id hid (List.mem_cons_of_mem _ hmem)⟩
      | some old =>
        obtain ⟨hid, htext⟩ := toString_of_existingRow (hexisting ▸ hold)
        simp only [keptIds, List.filterMap_cons, hold, Option.map_some, List.nodup_cons, List.forall_mem_cons]
        refine ⟨⟨fun hmem => hseen _ hmem (htext ▸ List.mem_cons_self), hnodup⟩, ?_, ?_⟩
        · exact htext ▸ hnew.resolve_left hid
        · exact fun id hmem hold => hseen id hmem (List.mem_cons_of_mem _ hold)

end

section
variable {orderId groupId : ℕ} {versionId : Option ℕ} {validated : List ValidatedRow} {t t' : Table ComponentRow}
  {ids : List ℕ}

/-! ## The writes -/

/-- What a checked row is stored as. -/
def writtenRow (orderId groupId : ℕ) (versionId : Option ℕ) (row : ValidatedRow) : ComponentRow :=
  match row.existing with
  | some (_, old) => { old with values := row.values, rowNo := row.index }
  | none => ⟨orderId, groupId, row.index, false, row.values, versionId⟩

@[simp] theorem rowNo_writtenRow {row : ValidatedRow} : (writtenRow orderId groupId versionId row).rowNo = row.index := by
  unfold writtenRow
  split <;> rfl

@[simp] theorem values_writtenRow {row : ValidatedRow} : (writtenRow orderId groupId versionId row).values = row.values := by
  unfold writtenRow
  split <;> rfl

/-- A checked row is stored under this id: the one that it names, or one that the table did not have. -/
def WrittenUnder (orderId groupId : ℕ) (versionId : Option ℕ) (t t' : Table ComponentRow) (row : ValidatedRow) (id : ℕ) :
    Prop :=
  t'.get? id = some (writtenRow orderId groupId versionId row) ∧
    (row.existing.map Prod.fst = some id ∨ row.existing = none ∧ t.nextId ≤ id)

/-- The checked rows are stored under these ids, and nothing else has changed. -/
structure RowsWritten (orderId groupId : ℕ) (versionId : Option ℕ) (t : Table ComponentRow) (validated : List ValidatedRow)
    (ids : List ℕ) (t' : Table ComponentRow) : Prop where
  written : List.Forall₂ (WrittenUnder orderId groupId versionId t t') validated ids
  nodup : ids.Nodup
  rest : ∀ i ∉ ids, t'.get? i = t.get? i

/-- The rows that are named are there, and none is named twice. -/
structure Writable (t : Table ComponentRow) (validated : List ValidatedRow) : Prop where
  stored : ∀ row ∈ validated, ∀ old ∈ row.existing, t.get? old.1 = some old.2
  nodup : (keptIds validated).Nodup

theorem mem_keptIds {row : ValidatedRow} {old : ℕ × ComponentRow} (hrow : row ∈ validated) (h : row.existing = some old) :
    old.1 ∈ keptIds validated := List.mem_filterMap.2 ⟨row, hrow, by rw [h, Option.map_some]⟩

/-- What one write does. -/
theorem writeRow_spec (orderId groupId : ℕ) (versionId : Option ℕ) {row : ValidatedRow} (h : Writable t (row :: validated)) :
    ∃ id, (writeRow orderId groupId versionId t row).get? id = some (writtenRow orderId groupId versionId row) ∧
      (row.existing.map Prod.fst = some id ∨ row.existing = none ∧ id = t.nextId) ∧
      (∀ i, i ≠ id → (writeRow orderId groupId versionId t row).get? i = t.get? i) ∧
      t.nextId ≤ (writeRow orderId groupId versionId t row).nextId ∧
      id < (writeRow orderId groupId versionId t row).nextId := by
  cases hexisting : row.existing with
  | some old =>
    obtain ⟨id, old⟩ := old
    have hold := h.stored row List.mem_cons_self _ hexisting
    refine ⟨id, ?_, .inl rfl, ?_, le_of_eq ?_, ?_⟩
    · simp only [writeRow, writtenRow, hexisting, Table.get?_modify_self, hold, Option.map_some]
    · intro i hi
      simp only [writeRow, hexisting, Table.get?_modify_of_ne _ hi]
    · simp only [writeRow, hexisting]
      rfl
    · simp only [writeRow, hexisting]
      exact Table.lt_nextId (t := t) hold
  | none =>
    refine ⟨t.nextId, ?_, .inr ⟨rfl, rfl⟩, ?_, ?_, ?_⟩
    · simp only [writeRow, writtenRow, hexisting, Table.get?_insert_self]
    · intro i hi
      simp only [writeRow, hexisting, Table.get?_insert, if_neg hi]
    all_goals
      simp only [writeRow, hexisting, Table.insert]
      omega

theorem Writable.step (orderId groupId : ℕ) (versionId : Option ℕ) {row : ValidatedRow} (h : Writable t (row :: validated)) :
    Writable (writeRow orderId groupId versionId t row) validated := by
  obtain ⟨id, -, hid, hrest, -⟩ := writeRow_spec orderId groupId versionId h
  refine ⟨fun other hother old hold => ?_, h.nodup.sublist ((List.sublist_cons_self _ _).filterMap _)⟩
  have hget := h.stored other (List.mem_cons_of_mem _ hother) old hold
  rw [hrest, hget]
  rintro rfl
  rcases hid with hnamed | ⟨-, hnext⟩
  · obtain ⟨e, he, hfst⟩ := Option.map_eq_some_iff.1 hnamed
    have hnodup := h.nodup
    simp only [keptIds, List.filterMap_cons, he, Option.map_some, List.nodup_cons] at hnodup
    exact hnodup.1 (hfst ▸ mem_keptIds hother hold)
  · exact absurd (Table.lt_nextId hget) (hnext ▸ lt_irrefl _)

/-- The ids are those that are named, and new ones. -/
theorem mem_ids (h : List.Forall₂ (WrittenUnder orderId groupId versionId t t') validated ids) {i : ℕ} (hi : i ∈ ids) :
    i ∈ keptIds validated ∨ t.nextId ≤ i := by
  induction h with
  | nil => cases hi
  | @cons row id validated ids hunder _ ih =>
    rcases List.mem_cons.1 hi with rfl | hi
    · refine hunder.2.imp (fun hnamed => ?_) And.right
      exact List.mem_filterMap.2 ⟨row, List.mem_cons_self, hnamed⟩
    · exact (ih hi).imp_left fun hkept => ((List.sublist_cons_self row validated).filterMap _).subset hkept

theorem mem_ids_of_kept (h : List.Forall₂ (WrittenUnder orderId groupId versionId t t') validated ids) {i : ℕ}
    (hi : i ∈ keptIds validated) : i ∈ ids := by
  induction h with
  | nil => cases hi
  | @cons row id validated ids hunder _ ih =>
    obtain ⟨other, hother, hnamed⟩ := List.mem_filterMap.1 hi
    rcases List.mem_cons.1 hother with rfl | hother
    · rcases hunder.2 with hid | ⟨hnone, -⟩
      · rw [hid, Option.some.injEq] at hnamed
        exact hnamed ▸ List.mem_cons_self
      · rw [hnone] at hnamed
        cases hnamed
    · exact List.mem_cons_of_mem _ (ih (List.mem_filterMap.2 ⟨other, hother, hnamed⟩))

/-- The run lemma. -/
theorem rowsWritten (orderId groupId : ℕ) (versionId : Option ℕ) (h : Writable t validated) :
    ∃ ids, RowsWritten orderId groupId versionId t validated ids
      (validated.foldl (writeRow orderId groupId versionId) t) := by
  induction validated generalizing t with
  | nil => exact ⟨[], .nil, .nil, fun _ _ => rfl⟩
  | cons row validated ih =>
    obtain ⟨id, hget, hid, hrest, hgrown, hlt⟩ :=
      writeRow_spec orderId groupId versionId h
    obtain ⟨ids, hwritten, hnodup, hothers⟩ := ih (h.step orderId groupId versionId)
    have hnew : id ∉ ids := by
      intro hmem
      rcases mem_ids hwritten hmem with hkept | hle
      · have hkeeps := h.nodup
        rcases hid with hnamed | ⟨hnone, hnext⟩
        · obtain ⟨e, he, rfl⟩ := Option.map_eq_some_iff.1 hnamed
          simp only [keptIds, List.filterMap_cons, he, Option.map_some, List.nodup_cons] at hkeeps
          exact hkeeps.1 hkept
        · obtain ⟨other, hother, hnamed⟩ := List.mem_filterMap.1 hkept
          obtain ⟨e, he, rfl⟩ := Option.map_eq_some_iff.1 hnamed
          exact absurd (Table.lt_nextId (h.stored _ (List.mem_cons_of_mem _ hother) e he)) (hnext ▸ lt_irrefl _)
      · omega
    refine ⟨id :: ids, .cons ⟨?_, ?_⟩ ?_, List.nodup_cons.2 ⟨hnew, hnodup⟩, ?_⟩
    · rw [List.foldl_cons, hothers id hnew, hget]
    · exact hid.imp_right fun hnext => ⟨hnext.1, hnext.2.ge⟩
    · exact hwritten.imp fun other i hunder => ⟨hunder.1, hunder.2.imp_right fun hnext => ⟨hnext.1, hgrown.trans hnext.2⟩⟩
    · intro i hi
      rw [List.mem_cons, not_or] at hi
      rw [List.foldl_cons, hothers i hi.2, hrest i hi.1]

end

/-- Values under other codes are the ones that were there. -/
theorem mem_validateValues {fromIsoFormat : String → Bool} {referenceIds : String → List ℤ}
    {members : List (ComponentGroupAttribute × (ℕ × ComponentAttribute))} {provided existing values : List (String × Json)}
    (h : validateValues fromIsoFormat referenceIds members provided existing = .ok values) {entry : String × Json}
    (hcode : ∀ member ∈ members, member.2.2.code ≠ entry.1) : entry ∈ values ↔ entry ∈ existing := by
  have hfield : ∀ {value : Except String (Option Json)}, (entry.1, value) ∉ members.map fun member => (member.2.2.code,
      fieldValue fromIsoFormat referenceIds member (submittedOr provided existing member.2.2.code)) := by
    intro value hmem
    obtain ⟨member, hmember, heq⟩ := List.mem_map.1 hmem
    exact hcode member hmember (Prod.mk.injEq .. ▸ heq).1
  simp only [validateValues] at h
  split at h
  · rw [Except.ok.injEq] at h
    rw [← h, List.mem_append, List.mem_filter]
    constructor
    · rintro (hold | hnew)
      · exact hold.1
      · obtain ⟨⟨code, value⟩, hmem, hvalue⟩ := List.mem_filterMap.1 hnew
        split at hvalue
        · cases hvalue
          exact absurd hmem hfield
        · cases hvalue
    · refine fun hold => .inl ⟨hold, ?_⟩
      rw [Bool.not_eq_true', List.any_eq_false]
      rintro ⟨code, value⟩ hmem hkey
      obtain rfl : code = entry.1 := beq_iff_eq.1 hkey
      exact hfield hmem
  · cases h

section
variable {fromIsoFormat : String → Bool} {db db' : ConfigDb} {orderId groupId : ℕ} {items : List RowPayload}
  {tabGroupId : Option ℕ}

/-! ## The save -/

/-- A save that is accepted has checked every row, and written it. -/
structure SavedRows (fromIsoFormat : String → Bool) (db : ConfigDb) (orderId groupId : ℕ) (items : List RowPayload)
    (validated : List ValidatedRow) (ids : List ℕ) (versionId : Option ℕ) (rows : Table ComponentRow) : Prop where
  checked : List.Forall₂ (CheckedAs fromIsoFormat (fun type => db.referenceIds type orderId)
    (groupAttributes db.toConfiguration groupId) (storedRows db orderId groupId)) (items.zipIdx 1) validated
  written : RowsWritten orderId groupId versionId (clearRows db.rows orderId groupId (keptIds validated)) validated ids rows

theorem get?_clearRows {rows : Table ComponentRow} {kept : List ℕ} {id : ℕ} {row : ComponentRow} :
    (clearRows rows orderId groupId kept).get? id = some row ↔
      rows.get? id = some row ∧ (inGroup orderId groupId row = true → id ∈ kept) := by
  rw [clearRows, Table.get?_erase, Option.filter_eq_some_iff]
  refine and_congr_right fun _ => ?_
  cases hscope : inGroup orderId groupId row with
  | true => simp [inGroup] at hscope; simp [hscope]
  | false =>
    simp only [inGroup] at hscope
    simp [hscope]

theorem get?_of_nextId_le {t : Table ComponentRow} {id : ℕ} (h : t.nextId ≤ id) : t.get? id = none := by
  rw [Option.eq_none_iff_forall_ne_some]
  intro row hrow
  exact absurd (Table.lt_nextId hrow) h.not_gt

/-- The rows that the checked ones name are still there when they are written. -/
theorem writable_clearRows {checked : List (RowPayload × ℕ)} {validated : List ValidatedRow}
    {referenceIds : String → List ℤ} {members : List (ComponentGroupAttribute × (ℕ × ComponentAttribute))}
    (h : List.Forall₂ (CheckedAs fromIsoFormat referenceIds members (storedRows db orderId groupId)) checked validated)
    (hnodup : (keptIds validated).Nodup) :
    Writable (clearRows db.rows orderId groupId (keptIds validated)) validated := by
  refine ⟨fun row hrow old hold => ?_, hnodup⟩
  obtain ⟨item, -, hchecked⟩ := Pairings.exists_of_forall₂ h hrow
  have hmem := existingRow_mem (hchecked.existing ▸ hold)
  exact get?_clearRows.2 ⟨(Table.mem_select.1 hmem).1, fun _ => mem_keptIds hrow hold⟩

theorem savedRows_of_ok (h : bulkSave fromIsoFormat db orderId groupId items tabGroupId = .ok db') :
    (∀ errors, .error errors ∉ checkedRows fromIsoFormat db orderId groupId items) ∧
    ∃ validated ids versionId, SavedRows fromIsoFormat db orderId groupId items validated ids versionId db'.rows := by
  simp only [bulkSave, bind_eq_ok, require_eq_ok, check_eq_ok, pure_eq_ok] at h
  obtain ⟨order, -, group, -, layout, -, -, -, -, -, -, herrors, rfl⟩ := h
  obtain ⟨hchecked, hnodup, -⟩ := validateRows_checked herrors
  refine ⟨fun errors hmem => ?_, ?_⟩
  · exact mem_validateRows_error hmem (List.flatMap_eq_nil_iff.1 herrors _ hmem)
  · obtain ⟨ids, hids⟩ := rowsWritten orderId groupId order.configurationVersionId (writable_clearRows hchecked hnodup)
    exact ⟨_, ids, _, hchecked, hids⟩

variable {validated : List ValidatedRow} {ids : List ℕ} {versionId : Option ℕ} {rows : Table ComponentRow}

namespace SavedRows

theorem length (h : SavedRows fromIsoFormat db orderId groupId items validated ids versionId rows) :
    ids.length = items.length := by
  rw [← h.written.written.length_eq, ← h.checked.length_eq, List.length_zipIdx]

/-- Every row of the group is one of those written. -/
theorem mem_ids (h : SavedRows fromIsoFormat db orderId groupId items validated ids versionId rows) {id : ℕ}
    {row : ComponentRow} (hrow : rows.get? id = some row) (hscope : inGroup orderId groupId row = true) : id ∈ ids := by
  by_contra hnot
  rw [h.written.rest id hnot, get?_clearRows] at hrow
  exact hnot (mem_ids_of_kept h.written.written (hrow.2 hscope))

/-- An archived row of the group is deleted, or is one of the submitted ones and not shown. -/
theorem not_rowsExact (h : SavedRows fromIsoFormat db orderId groupId items validated ids versionId rows) {id : ℕ}
    {row : ComponentRow} (hrow : db.rows.get? id = some row) (hscope : inGroup orderId groupId row = true)
    (harchived : row.isArchived = true) : ¬RowsExact fromIsoFormat db orderId groupId items rows := by
  intro hexact
  have hthere := (hexact.untouched id row (by simp [isShownRow, harchived])).2 hrow
  have hmem := h.mem_ids hthere hscope
  -- The shown rows are among the others, and there are fewer of those than were submitted.
  have hothers : (listRows rows orderId groupId).map Prod.fst ⊆ ids.erase id := by
    intro other hother
    obtain ⟨shown, hshown, rfl⟩ := List.mem_map.1 hother
    obtain ⟨hget, hfilter⟩ := Table.mem_select.1 ((List.mem_insertionSort rowOrder).1 hshown)
    simp only [isShownRow, Bool.and_eq_true, Bool.not_eq_true'] at hfilter
    refine (List.mem_erase_of_ne ?_).2 (h.mem_ids hget hfilter.1)
    rintro rfl
    rw [hget, Option.some.injEq] at hthere
    rw [← hthere, hfilter.2] at harchived
    cases harchived
  have hle := (hexact.once.subperm hothers).length_le
  rw [List.length_map, ← hexact.shown.length_eq, List.length_zipIdx, List.length_erase_of_mem hmem, h.length] at hle
  have hpos := List.length_pos_of_mem hmem
  rw [h.length] at hpos
  omega

/-- The rows of the group in the order of the submitted ones. -/
def placed (orderId groupId : ℕ) (versionId : Option ℕ) (validated : List ValidatedRow) (ids : List ℕ) :
    List (ℕ × ComponentRow) :=
  (validated.zip ids).map fun e => (e.2, writtenRow orderId groupId versionId e.1)

theorem forall₂_placed (h : SavedRows fromIsoFormat db orderId groupId items validated ids versionId rows) :
    List.Forall₂ (fun item e => ∃ row id, CheckedAs fromIsoFormat (fun type => db.referenceIds type orderId)
      (groupAttributes db.toConfiguration groupId) (storedRows db orderId groupId) item row ∧
      WrittenUnder orderId groupId versionId (clearRows db.rows orderId groupId (keptIds validated)) rows row id ∧
      e = (id, writtenRow orderId groupId versionId row)) (items.zipIdx 1) (placed orderId groupId versionId validated ids) :=
  List.forall₂_map_right_iff.2 <| (Pairings.forall₂_zip h.checked h.written.written).imp
    fun _ e he => ⟨e.1, e.2, he.1, he.2, rfl⟩

theorem map_fst_placed (h : SavedRows fromIsoFormat db orderId groupId items validated ids versionId rows) :
    (placed orderId groupId versionId validated ids).map Prod.fst = ids := by
  rw [placed, List.map_map]
  exact List.map_snd_zip h.written.written.length_eq.ge

theorem pairwise_placed (h : SavedRows fromIsoFormat db orderId groupId items validated ids versionId rows) :
    (placed orderId groupId versionId validated ids).Pairwise rowOrder := by
  have hnumbers : (items.zipIdx 1).map Prod.snd =
      (placed orderId groupId versionId validated ids).map fun e => e.2.rowNo := by
    refine Pairings.map_eq_of_forall₂ h.forall₂_placed ?_
    rintro item e ⟨row, id, hchecked, -, rfl⟩
    rw [← hchecked.index, rowNo_writtenRow]
  have hlt : ((placed orderId groupId versionId validated ids).map fun e => e.2.rowNo).Pairwise (· < ·) := by
    rw [← hnumbers, List.zipIdx_map_snd]
    exact List.pairwise_lt_range'
  exact (List.pairwise_map.1 hlt).imp .inl

/-- A row that is named belongs to the group. -/
theorem existing_inGroup (h : SavedRows fromIsoFormat db orderId groupId items validated ids versionId rows)
    {row : ValidatedRow} (hrow : row ∈ validated) {old : ℕ × ComponentRow} (hold : row.existing = some old) :
    db.rows.get? old.1 = some old.2 ∧ inGroup orderId groupId old.2 = true := by
  obtain ⟨item, -, hchecked⟩ := Pairings.exists_of_forall₂ h.checked hrow
  exact Table.mem_select.1 (existingRow_mem (hchecked.existing ▸ hold))

variable (hshown : ∀ id row, db.rows.get? id = some row → inGroup orderId groupId row = true → row.isArchived = false)
include hshown

theorem isShownRow_writtenRow (h : SavedRows fromIsoFormat db orderId groupId items validated ids versionId rows)
    {row : ValidatedRow} (hrow : row ∈ validated) :
    isShownRow orderId groupId (writtenRow orderId groupId versionId row) = true := by
  cases hexisting : row.existing with
  | none => simp [writtenRow, hexisting, isShownRow, inGroup]
  | some old =>
    obtain ⟨hget, hscope⟩ := h.existing_inGroup hrow hexisting
    have harchived := hshown old.1 old.2 hget hscope
    simpa [writtenRow, hexisting, isShownRow, inGroup, harchived] using hscope

theorem listRows_eq (h : SavedRows fromIsoFormat db orderId groupId items validated ids versionId rows) :
    listRows rows orderId groupId = placed orderId groupId versionId validated ids := by
  have hkeys : ((placed orderId groupId versionId validated ids).map Prod.fst).Nodup := by
    rw [h.map_fst_placed]
    exact h.written.nodup
  refine Table.insertionSort_select ?_ hkeys h.pairwise_placed ?_
  · intro a b hab hba
    simp only [rowOrder] at hab hba
    omega
  have hplaced : ∀ id row, (id, row) ∈ placed orderId groupId versionId validated ids →
      rows.get? id = some row ∧ isShownRow orderId groupId row = true := by
    intro id row hmem
    obtain ⟨⟨checked, id'⟩, hzip, heq⟩ := List.mem_map.1 hmem
    cases heq
    obtain ⟨item, -, -, hunder⟩ := Pairings.exists_of_forall₂ (Pairings.forall₂_zip h.checked h.written.written) hzip
    exact ⟨hunder.1, h.isShownRow_writtenRow hshown (List.of_mem_zip hzip).1⟩
  refine fun id row => ⟨hplaced id row, fun ⟨hget, hfilter⟩ => ?_⟩
  simp only [isShownRow, Bool.and_eq_true] at hfilter
  have hmem := h.mem_ids hget hfilter.1
  rw [← h.map_fst_placed] at hmem
  obtain ⟨⟨id', other⟩, hother, rfl⟩ := List.mem_map.1 hmem
  have hsame := (hplaced id' other hother).1
  rw [hget, Option.some.injEq] at hsame
  exact hsame ▸ hother

theorem namedRow_eq (item : RowPayload) :
    namedRow db orderId groupId item = existingRow (storedRows db orderId groupId) item := by
  have hselect : db.rows.select (isShownRow orderId groupId) = storedRows db orderId groupId := by
    refine List.filter_congr fun r hr => ?_
    show isShownRow orderId groupId r.2 = inGroup orderId groupId r.2
    cases hscope : inGroup orderId groupId r.2 with
    | false => simp [isShownRow, hscope]
    | true => simp [isShownRow, hscope, hshown r.1 r.2 (Table.get?_eq_some.2 hr) hscope]
  rw [namedRow, hselect]

theorem standsFor {item : RowPayload × ℕ} {row : ValidatedRow} {id : ℕ}
    (hchecked : CheckedAs fromIsoFormat (fun type => db.referenceIds type orderId)
      (groupAttributes db.toConfiguration groupId) (storedRows db orderId groupId) item row)
    (hunder : WrittenUnder orderId groupId versionId (clearRows db.rows orderId groupId (keptIds validated)) rows row id) :
    StandsFor fromIsoFormat db orderId groupId item (id, writtenRow orderId groupId versionId row) := by
  have hnamed := namedRow_eq hshown item.1
  rw [← hchecked.existing] at hnamed
  have hvalues := hchecked.values
  rw [← hchecked.existing, ← hnamed] at hvalues
  refine ⟨rowNo_writtenRow.trans hchecked.index, fun old hold => ?_, fun hnone => ?_, ?_, fun entry hcode => ?_⟩
  · rcases hunder.2 with hid | ⟨hnone, -⟩
    · rw [← hnamed, Option.mem_def.1 hold, Option.map_some, Option.some.injEq] at hid
      exact hid.symm
    · rw [hnamed, hnone] at hold
      cases hold
  · rcases hunder.2 with hid | ⟨-, hle⟩
    · rw [← hnamed, hnone] at hid
      cases hid
    · exact get?_of_nextId_le hle
  · rw [values_writtenRow]
    exact hvalues
  · rw [values_writtenRow]
    exact mem_validateValues hvalues hcode

theorem rowsExact (h : SavedRows fromIsoFormat db orderId groupId items validated ids versionId rows) :
    RowsExact fromIsoFormat db orderId groupId items rows := by
  refine ⟨?_, ?_, fun id row hhidden => ?_⟩
  · rw [h.listRows_eq hshown]
    refine h.forall₂_placed.imp ?_
    rintro item e ⟨row, id, hchecked, hunder, rfl⟩
    exact standsFor hshown hchecked hunder
  · rw [h.listRows_eq hshown, h.map_fst_placed]
    exact h.written.nodup
  · by_cases hmem : id ∈ ids
    · obtain ⟨checked, hchecked, hget, hunder⟩ := Pairings.exists_of_forall₂ h.written.written hmem
      have hvisible := h.isShownRow_writtenRow hshown hchecked
      constructor
      · intro hrow
        rw [hget, Option.some.injEq] at hrow
        rw [← hrow, hvisible] at hhidden
        cases hhidden
      · intro hrow
        rcases hunder with hid | ⟨-, hle⟩
        · obtain ⟨old, hold, rfl⟩ := Option.map_eq_some_iff.1 hid
          obtain ⟨hstored, hscope⟩ := h.existing_inGroup hchecked hold
          rw [hrow, Option.some.injEq] at hstored
          rw [← hstored] at hscope
          rw [isShownRow, hscope, hshown old.1 row hrow hscope] at hhidden
          cases hhidden
        · rw [get?_of_nextId_le (t := db.rows) hle] at hrow
          cases hrow
    · rw [h.written.rest id hmem, get?_clearRows, and_iff_left_iff_imp]
      intro hrow hscope
      rw [isShownRow, hscope, hshown id row hrow hscope] at hhidden
      cases hhidden

end SavedRows

end

/-- **A save of the rows of a group** writes nothing where a row fails its checks. Otherwise the shown rows are the
submitted ones in their order, and nothing else is touched, exactly where no row of the group is archived. -/
theorem bulkSave_exact_iff (fromIsoFormat : String → Bool) (db : ConfigDb) (orderId groupId : ℕ) (items : List RowPayload)
    (tabGroupId : Option ℕ) :
    ((∃ errors, .error errors ∈ checkedRows fromIsoFormat db orderId groupId items) →
      rowsAfter db (bulkSave fromIsoFormat db orderId groupId items tabGroupId) = db.rows) ∧
    ∀ db', bulkSave fromIsoFormat db orderId groupId items tabGroupId = .ok db' →
      (RowsExact fromIsoFormat db orderId groupId items db'.rows ↔
        ∀ id row, db.rows.get? id = some row → inGroup orderId groupId row = true → row.isArchived = false) := by
  constructor
  · rintro ⟨errors, herror⟩
    cases hsave : bulkSave fromIsoFormat db orderId groupId items tabGroupId with
    | error e => rfl
    | ok db' => exact absurd herror ((savedRows_of_ok hsave).1 errors)
  · intro db' hsave
    obtain ⟨-, validated, ids, versionId, hsaved⟩ := savedRows_of_ok hsave
    refine ⟨fun hexact id row hrow hscope => ?_, hsaved.rowsExact⟩
    by_contra harchived
    exact hsaved.not_rowsExact hrow hscope (Bool.eq_true_of_not_eq_false harchived) hexact

/-- An order on the booking form with these rows. -/
def orderWithRows (rows : Table ComponentRow) : ConfigDb :=
  { bookingForm with versions := .empty, rows, orders := Table.empty.insert ⟨none, 1⟩, referenceIds := fun _ _ => [] }

/-- The first row has a value under a code that is no field now. -/
def twoContainers : ConfigDb := orderWithRows
  ((Table.empty.insert ⟨1, 1, 1, false, [("seal-no", .str "S1"), ("container-no", .str "MSKU1")], none⟩).insert
    ⟨1, 1, 2, false, [("container-no", .str "MSKU2")], none⟩)

/-- A new row comes first, the first row is kept, and one row names nobody. -/
def containersAgain : List RowPayload :=
  [⟨"", [("container-no", .str "MSKU3")]⟩, ⟨"1", [("container-no", .str "MSKU4")]⟩, ⟨"9", [("container-no", .str "MSKU5")]⟩]

theorem bulkSave_exact_containersAgain :
    ∃ db', bulkSave (fun _ => false) twoContainers 1 1 containersAgain none = .ok db' ∧
      RowsExact (fun _ => false) twoContainers 1 1 containersAgain db'.rows ∧
      (listRows db'.rows 1 1).map (fun row => (row.1, row.2.values)) =
        [(3, [("container-no", .str "MSKU3")]), (1, [("seal-no", .str "S1"), ("container-no", .str "MSKU4")]),
          (4, [("container-no", .str "MSKU5")])] := by
  obtain ⟨db', hsave, hlist⟩ := okAnd_eq_true.1
    (show okAnd (bulkSave (fun _ => false) twoContainers 1 1 containersAgain none) (fun db' =>
      (listRows db'.rows 1 1).map (fun row => (row.1, row.2.values)) =
        [(3, [("container-no", .str "MSKU3")]), (1, [("seal-no", .str "S1"), ("container-no", .str "MSKU4")]),
          (4, [("container-no", .str "MSKU5")])]) = true by decide +kernel)
  have hexact := (bulkSave_exact_iff (fun _ => false) twoContainers 1 1 containersAgain none).2 db' hsave
  have hlive : ∀ row ∈ twoContainers.rows.rows, row.2.isArchived = false := by decide +kernel
  exact ⟨db', hsave, hexact.2 fun id row hrow _ => hlive _ (Table.get?_eq_some.1 hrow), hlist⟩

/-- An order whose only row is archived. -/
def archivedContainer : ConfigDb :=
  orderWithRows (Table.empty.insert ⟨1, 1, 1, true, [("container-no", .str "MSKU1")], none⟩)

/-- Saving one new row deletes the archived one. -/
theorem archived_row_is_deleted :
    ∃ db', bulkSave (fun _ => false) archivedContainer 1 1 [⟨"", [("container-no", .str "MSKU2")]⟩] none = .ok db' ∧
      (archivedContainer.rows.get? 1).isSome = true ∧ db'.rows.get? 1 = none ∧
      ¬RowsExact (fun _ => false) archivedContainer 1 1 [⟨"", [("container-no", .str "MSKU2")]⟩] db'.rows := by
  obtain ⟨db', hsave, hgone⟩ := okAnd_eq_true.1
    (show okAnd (bulkSave (fun _ => false) archivedContainer 1 1 [⟨"", [("container-no", .str "MSKU2")]⟩] none)
      (fun db' => db'.rows.get? 1 = none) = true by decide +kernel)
  refine ⟨db', hsave, by decide +kernel, hgone, fun hexact => ?_⟩
  obtain ⟨row, hrow, hhidden⟩ : ∃ row, archivedContainer.rows.get? 1 = some row ∧ isShownRow 1 1 row = false :=
    ⟨_, rfl, rfl⟩
  have hthere := (hexact.untouched 1 row hhidden).2 hrow
  rw [hgone] at hthere
  cases hthere

end LcsSystem
