import LcsSystem.Archive.Records
import LcsSystem.Lib.Transition

/-!
# Entries and rows in step

Over any sequence of `archive_record`, `restore_record` and `hard_delete_record` an entry says what became of its row.
A call either leaves rows and entries alone, or moves one record (`RecordMoved`).
-/

namespace LcsSystem
open Relational Transition

inductive ArchiveOperation
  | archive | restore | hardDelete
  deriving DecidableEq

structure ArchiveAction where
  operation : ArchiveOperation
  entityType : String
  entityId : ℕ
  call : ArchiveCall

/-- What a request is answered, and what is committed when it ends. -/
def archiveRequest (db : ArchiveDb) (a : ArchiveAction) : Result PUnit.{1} × ArchiveDb :=
  match a.operation with
  | .archive => archiveRecord db a.entityType a.entityId a.call
  | .restore => restoreRecord db a.entityType a.entityId a.call
  | .hardDelete => hardDeleteRecord db a.entityType a.entityId a.call

def archiveStep (db : ArchiveDb) (a : ArchiveAction) : ArchiveDb := (archiveRequest db a).2

/-- There is one entry for a record, and it is archived, restored or permanently deleted as its row is. -/
structure ArchiveKept (db : ArchiveDb) : Prop where
  single : ∀ i j a b, db.entries.get? i = some a → db.entries.get? j = some b → a.entityType = b.entityType →
    a.entityId = b.entityId → i = j
  archived : ∀ i a, db.entries.get? i = some a →
    (a.status = .archived ↔ ∃ row, recordOf db a.entityType a.entityId = some row ∧ row.deletedAt.isSome = true)
  restored : ∀ i a, db.entries.get? i = some a → a.status = .restored →
    ∃ row, recordOf db a.entityType a.entityId = some row ∧ row.deletedAt = none
  hardDeleted : ∀ i a, db.entries.get? i = some a →
    (a.status = .hardDeleted ↔ recordOf db a.entityType a.entityId = none)

/-! ## Adapters -/

theorem adapterFor_cases {entityType : String} {adapter : ArchiveAdapter} (h : adapterFor entityType = some adapter) :
    adapter.entityType = entityType ∧ (adapter ∈ archiveRegistry ∨
      adapter.model = .moduleRecord ∧ adapter.collection = some entityType) := by
  rw [adapterFor, Option.or_eq_some_iff] at h
  rcases h with hfind | ⟨-, hgeneric⟩
  · have htype := List.find?_some hfind
    exact ⟨beq_iff_eq.1 htype, .inl (List.mem_of_find?_eq_some hfind)⟩
  · obtain ⟨c, hfind, rfl⟩ := Option.map_eq_some_iff.1 hgeneric
    have htype : c.1 = entityType := by simpa using List.find?_some hfind
    exact ⟨htype, .inr ⟨rfl, congrArg some htype⟩⟩

theorem model_registry : ∀ a ∈ archiveRegistry, a.model ≠ .moduleRecord := by decide

theorem entityType_registry : ∀ a ∈ archiveRegistry, ∀ b ∈ archiveRegistry, a.model = b.model →
    a.entityType = b.entityType := by decide

/-- Two types share a table only as collections of it. -/
theorem collection_of_model_eq {s t : String} {a b : ArchiveAdapter} (ha : adapterFor s = some a)
    (hb : adapterFor t = some b) (hne : s ≠ t) (hmodel : a.model = b.model) :
    a.collection = some s ∧ b.collection = some t := by
  obtain ⟨rfl, hs⟩ := adapterFor_cases ha
  obtain ⟨rfl, ht⟩ := adapterFor_cases hb
  rcases hs with hs | ⟨hs, hscope⟩
  · rcases ht with ht | ⟨ht, -⟩
    · exact absurd (entityType_registry a hs b ht hmodel) hne
    · exact absurd (hmodel.trans ht) (model_registry a hs)
  · rcases ht with ht | ⟨-, htscope⟩
    · exact absurd (hmodel.symm.trans hs) (model_registry b ht)
    · exact ⟨hscope, htscope⟩

/-! ## One record moves -/

/-- The status goes with what is found of the row. -/
def InStep : ArchiveStatus → Option EntityRow → Prop
  | .archived, found => ∃ row, found = some row ∧ row.deletedAt.isSome = true
  | .restored, found => ∃ row, found = some row ∧ row.deletedAt = none
  | .hardDeleted, found => found = none

theorem inStep_iff {status : ArchiveStatus} {found : Option EntityRow} :
    InStep status found ↔ (status = .archived ↔ ∃ row, found = some row ∧ row.deletedAt.isSome = true) ∧
      (status = .restored → ∃ row, found = some row ∧ row.deletedAt = none) ∧
      (status = .hardDeleted ↔ found = none) := by
  cases status <;> cases found with
  | none => simp [InStep]
  | some row => cases hd : row.deletedAt <;> simp [InStep, hd]

/-- The row of the record is `found` now, and its entry has this status; no other row or entry has changed. -/
structure RecordMoved (db : ArchiveDb) (entityType : String) (id : ℕ) (status : ArchiveStatus) (found : Option EntityRow)
    (db' : ArchiveDb) : Prop where
  row : ∃ adapter old, adapterFor entityType = some adapter ∧ entityRow db adapter id = some old ∧
    (∀ new ∈ found, new.columns = old.columns) ∧
    ∀ model i, (db'.rows model).get? i = if model = adapter.model ∧ i = id then found else (db.rows model).get? i
  entry : ∃ entryId record, record.entityType = entityType ∧ record.entityId = id ∧ record.status = status ∧
    (∀ i, db'.entries.get? i = if i = entryId then some record else db.entries.get? i) ∧
    ∀ i other, db.entries.get? i = some other → other.entityType = entityType → other.entityId = id → i = entryId
  inStep : InStep status found

section
variable {db db' : ArchiveDb} {entityType : String} {id : ℕ} {status : ArchiveStatus} {found : Option EntityRow}

/-- The row of the record is found as it is. -/
theorem RecordMoved.recordOf_self (h : RecordMoved db entityType id status found db') :
    recordOf db' entityType id = found := by
  obtain ⟨adapter, old, hadapter, hold, hcolumns, hrows⟩ := h.row
  obtain ⟨-, hcollection⟩ := Option.filter_eq_some_iff.1 hold
  rw [recordOf, hadapter, Option.bind_some, entityRow, hrows, if_pos ⟨rfl, rfl⟩]
  cases hfound : found with
  | none => rfl
  | some new =>
    rw [Option.filter_eq_some_iff]
    refine ⟨rfl, ?_⟩
    simpa only [EntityRow.column, hcolumns new hfound] using hcollection

/-- The rows of other records are found as they were. -/
theorem RecordMoved.recordOf_other (h : RecordMoved db entityType id status found db') {otherType : String} {other : ℕ}
    (hne : ¬(otherType = entityType ∧ other = id)) : recordOf db' otherType other = recordOf db otherType other := by
  obtain ⟨adapter, old, hadapter, hold, hcolumns, hrows⟩ := h.row
  cases hother : adapterFor otherType with
  | none => simp only [recordOf, hother, Option.bind_none]
  | some otherAdapter =>
    simp only [recordOf, hother, Option.bind_some, entityRow, hrows]
    split
    · next hsame =>
      obtain ⟨hmodel, rfl⟩ := hsame
      -- The row belongs to another collection, before and after.
      obtain ⟨hscope, hscope'⟩ := collection_of_model_eq hother hadapter (fun heq => hne ⟨heq, rfl⟩) hmodel
      obtain ⟨hget, hcollection⟩ := Option.filter_eq_some_iff.1 hold
      have hforeign : ∀ row : EntityRow, row.columns = old.columns →
          (otherAdapter.collection.all fun c => row.column "collection" == .str c) = false := by
        intro row hsame
        rw [hscope', Option.all_some, beq_iff_eq] at hcollection
        rw [hscope, Option.all_some, EntityRow.column, hsame, beq_eq_false_iff_ne]
        intro heq
        rw [EntityRow.column, heq] at hcollection
        exact hne ⟨Json.str.inj hcollection, rfl⟩
      rw [hmodel, hget, Option.filter_some, if_neg (by simp [hforeign old rfl])]
      cases hfound : found with
      | none => rfl
      | some new => rw [Option.filter_some, if_neg (by simp [hforeign new (hcolumns new hfound)])]
    · rfl

theorem ArchiveKept.inStep (h : ArchiveKept db) {i : ℕ} {a : ArchiveRecord} (ha : db.entries.get? i = some a) :
    InStep a.status (recordOf db a.entityType a.entityId) :=
  inStep_iff.2 ⟨h.archived i a ha, h.restored i a ha, h.hardDeleted i a ha⟩

theorem archiveKept_of_inStep
    (hsingle : ∀ i j a b, db.entries.get? i = some a → db.entries.get? j = some b → a.entityType = b.entityType →
      a.entityId = b.entityId → i = j)
    (h : ∀ i a, db.entries.get? i = some a → InStep a.status (recordOf db a.entityType a.entityId)) : ArchiveKept db :=
  ⟨hsingle, fun i a ha => (inStep_iff.1 (h i a ha)).1, fun i a ha => (inStep_iff.1 (h i a ha)).2.1,
    fun i a ha => (inStep_iff.1 (h i a ha)).2.2⟩

/-- The step lemma. -/
theorem ArchiveKept.moved (h : ArchiveKept db) (hmoved : RecordMoved db entityType id status found db') :
    ArchiveKept db' := by
  obtain ⟨entryId, record, htype, hid, hstatus, hentries, hunique⟩ := hmoved.entry
  have hkey : ∀ i a, db'.entries.get? i = some a → a.entityType = entityType → a.entityId = id → i = entryId := by
    intro i a ha hat hai
    rw [hentries] at ha
    split at ha
    · next heq => exact heq
    · exact hunique i a ha hat hai
  refine archiveKept_of_inStep ?_ ?_
  · intro i j a b ha hb htypes hids
    by_cases hthis : a.entityType = entityType ∧ a.entityId = id
    · rw [hkey i a ha hthis.1 hthis.2, hkey j b hb (htypes ▸ hthis.1) (hids ▸ hthis.2)]
    · have hold : ∀ k c, db'.entries.get? k = some c → ¬(c.entityType = entityType ∧ c.entityId = id) →
          db.entries.get? k = some c := by
        intro k c hc hother
        rw [hentries] at hc
        split at hc
        · cases hc
          exact absurd ⟨htype, hid⟩ hother
        · exact hc
      exact h.single i j a b (hold i a ha hthis) (hold j b hb (htypes ▸ hids ▸ hthis)) htypes hids
  · intro i a ha
    rw [hentries] at ha
    split at ha
    · cases ha
      rw [htype, hid, hmoved.recordOf_self, hstatus]
      exact hmoved.inStep
    · next hne =>
      rw [hmoved.recordOf_other fun hthis => hne (hunique i a ha hthis.1 hthis.2)]
      exact h.inStep ha

end

/-! ## What a request does -/

section
variable {db : ArchiveDb} {entityType : String} {id : ℕ} {call : ArchiveCall}

theorem archiveEntry_eq_some {entryId : ℕ} {record : ArchiveRecord}
    (h : db.archiveEntry entityType id = some (entryId, record)) :
    db.entries.get? entryId = some record ∧ record.entityType = entityType ∧ record.entityId = id := by
  have hkey := List.find?_some h
  simp only [Bool.and_eq_true, beq_iff_eq] at hkey
  exact ⟨Table.get?_eq_some.2 (List.mem_of_find?_eq_some h), hkey⟩

theorem archiveEntry_eq_none (h : db.archiveEntry entityType id = none) {i : ℕ} {record : ArchiveRecord}
    (hrecord : db.entries.get? i = some record) : ¬(record.entityType = entityType ∧ record.entityId = id) := by
  rintro ⟨htype, hid⟩
  refine List.find?_eq_none.1 h (i, record) (Table.get?_eq_some.1 hrecord) ?_
  simp [htype, hid]

/-- The table of the row after a statement on it. -/
theorem get?_update_rows {rows : EntityModel → Table EntityRow} {model : EntityModel} {t : Table EntityRow}
    {found : Option EntityRow} (ht : ∀ i, t.get? i = if i = id then found else (rows model).get? i) (m : EntityModel)
    (i : ℕ) : (Function.update rows model t m).get? i = if m = model ∧ i = id then found else (rows m).get? i := by
  by_cases hm : m = model
  · subst hm
    simp only [Function.update_self, ht, true_and]
  · simp only [Function.update_of_ne hm, hm, false_and, if_false]

theorem get?_modify_row {t : Table EntityRow} {row : EntityRow} (hrow : t.get? id = some row) (f : EntityRow → EntityRow)
    (i : ℕ) : (t.modify id f).get? i = if i = id then some (f row) else t.get? i := by
  rw [Table.get?_modify]
  split
  · next hi => rw [hi, hrow, Option.map_some]
  · rfl

theorem get?_erase_row (t : Table EntityRow) (i : ℕ) :
    (t.erase fun j _ => j == id).get? i = if i = id then none else t.get? i := by
  rw [Table.get?_erase]
  by_cases hi : i = id
  · simp [hi]
  · cases hrow : t.get? i <;> simp [hi]

/-- Rows and entries are as they were. -/
def SameRecords (db db' : ArchiveDb) : Prop := db'.rows = db.rows ∧ db'.entries = db.entries

/-- The entry with this key, or a new one, is the only one with it. -/
theorem putArchivedRecord_entry (hdb : ArchiveKept db) (record : ArchiveRecord) :
    ∃ entryId, (∀ i, (putArchivedRecord record db).entries.get? i = if i = entryId then some record else db.entries.get? i) ∧
      ∀ i other, db.entries.get? i = some other → other.entityType = record.entityType →
        other.entityId = record.entityId → i = entryId := by
  unfold putArchivedRecord
  cases hentry : db.archiveEntry record.entityType record.entityId with
  | none =>
    refine ⟨db.entries.nextId, fun i => Table.get?_insert _ _ _, fun i other hother htype hid => ?_⟩
    exact absurd ⟨htype, hid⟩ (archiveEntry_eq_none hentry hother)
  | some entry =>
    obtain ⟨entryId, old⟩ := entry
    obtain ⟨hold, htype, hid⟩ := archiveEntry_eq_some hentry
    refine ⟨entryId, fun i => ?_, fun i other hother hotherType hotherId => ?_⟩
    · simp only [ArchiveDb.updateEntry, Table.get?_modify]
      split
      · next hi => rw [hi, hold, Option.map_some]
      · rfl
    · exact hdb.single i entryId other old hother hold (hotherType.trans htype.symm) (hotherId.trans hid.symm)

@[simp] theorem rows_putArchivedRecord (record : ArchiveRecord) : (putArchivedRecord record db).rows = db.rows := by
  unfold putArchivedRecord
  split <;> rfl

/-- What a request comes to: it is refused and leaves the records alone, or it moves one. -/
def Settles (db : ArchiveDb) (entityType : String) (id : ℕ) (status : ArchiveStatus) (before : EntityRow → Prop)
    (after : EntityRow → Option EntityRow) (outcome : Result PUnit.{1} × ArchiveDb) : Prop :=
  (∃ e, outcome.1 = .error e ∧ SameRecords db outcome.2) ∨
    outcome.1 = .ok ⟨⟩ ∧ ∃ row, recordOf db entityType id = some row ∧ before row ∧
      RecordMoved db entityType id status (after row) outcome.2

/-- A row that is archived, or restored, at a time. -/
def EntityRow.marked (row : EntityRow) (deletedAt deletedByUserId : Option ℕ) (now : ℕ) : EntityRow :=
  { row with deletedAt, deletedByUserId, updatedAt := now }

theorem recordOf_of_adapter {adapter : ArchiveAdapter} {row : EntityRow} (hadapter : adapterFor entityType = some adapter)
    (hrow : entityRow db adapter id = some row) : recordOf db entityType id = some row := by
  rw [recordOf, hadapter, Option.bind_some, hrow]

theorem archiveRecord_settles (hdb : ArchiveKept db) :
    Settles db entityType id .archived (fun row => row.deletedAt = none)
      (fun row => some (row.marked (some call.now) call.userId call.now)) (archiveRecord db entityType id call) := by
  unfold archiveRecord
  cases hadapter : adapterFor entityType with
  | none => exact .inl ⟨_, rfl, rfl, rfl⟩
  | some adapter =>
    simp only
    cases hrow : entityRow db adapter id with
    | none => exact .inl ⟨_, rfl, rfl, rfl⟩
    | some row =>
      simp only
      by_cases hdeleted : row.deletedAt.isSome = true
      · rw [if_pos hdeleted]
        exact .inl ⟨_, rfl, rfl, rfl⟩
      rw [if_neg hdeleted]
      cases hcommits : call.commits with
      | false =>
        simp only [Bool.false_eq_true, if_false]
        exact .inl ⟨_, rfl, rfl, rfl⟩
      | true =>
        simp only [if_true]
        obtain ⟨entryId, hentries, hunique⟩ := putArchivedRecord_entry hdb (archivedRecord adapter id row call)
        have htype := (adapterFor_cases hadapter).1
        refine .inr ⟨rfl, row, recordOf_of_adapter hadapter hrow, by simpa using hdeleted, ?_, ?_, ?_⟩
        · refine ⟨adapter, row, hadapter, hrow, ?_, fun m i => ?_⟩
          · rintro new ⟨⟩
            rfl
          · show ((ArchiveDb.updateRow adapter.model id call.now _ (putArchivedRecord _ db)).rows m).get? i = _
            rw [ArchiveDb.updateRow, rows_putArchivedRecord]
            exact get?_update_rows (get?_modify_row (Option.filter_eq_some_iff.1 hrow).1 _) m i
        · exact ⟨entryId, archivedRecord adapter id row call, htype, rfl, rfl, hentries,
            fun i other hother hot hid => hunique i other hother (hot.trans htype.symm) hid⟩
        · exact ⟨_, rfl, rfl⟩

/-- The entry that is updated is the only one of its record. -/
theorem updateEntry_entry (hdb : ArchiveKept db) {entryId : ℕ} {record : ArchiveRecord}
    (hentry : db.archiveEntry entityType id = some (entryId, record)) {f : ArchiveRecord → ArchiveRecord}
    (htype : (f record).entityType = record.entityType) (hid : (f record).entityId = record.entityId) :
    ∃ record', record'.entityType = entityType ∧ record'.entityId = id ∧ record'.status = (f record).status ∧
      (∀ i, (db.entries.modify entryId f).get? i = if i = entryId then some record' else db.entries.get? i) ∧
      ∀ i other, db.entries.get? i = some other → other.entityType = entityType → other.entityId = id → i = entryId := by
  obtain ⟨hold, rfl, rfl⟩ := archiveEntry_eq_some hentry
  refine ⟨f record, htype, hid, rfl, fun i => ?_, fun i other hother hot hoid =>
    hdb.single i entryId other record hother hold hot hoid⟩
  rw [Table.get?_modify]
  split
  · next hi => rw [hi, hold, Option.map_some]
  · rfl

theorem restoreRecord_settles (hdb : ArchiveKept db) :
    Settles db entityType id .restored (fun row => row.deletedAt.isSome = true)
      (fun row => some (row.marked none none call.now)) (restoreRecord db entityType id call) := by
  unfold restoreRecord
  cases hentry : db.archiveEntry entityType id with
  | none => exact .inl ⟨_, rfl, rfl, rfl⟩
  | some entry =>
    obtain ⟨entryId, record⟩ := entry
    simp only
    by_cases hstatus : record.status ≠ .archived
    · rw [if_pos hstatus]
      exact .inl ⟨_, rfl, rfl, rfl⟩
    rw [if_neg hstatus]
    cases hadapter : adapterFor entityType with
    | none => exact .inl ⟨_, rfl, rfl, rfl⟩
    | some adapter =>
      simp only
      cases hrow : entityRow db adapter id with
      | none => exact .inl ⟨_, rfl, rfl, rfl⟩
      | some row =>
        simp only
        by_cases hdeleted : row.deletedAt = none
        · rw [if_pos hdeleted]
          exact .inl ⟨_, rfl, rfl, rfl⟩
        rw [if_neg hdeleted]
        cases hconflict : restoreConflict db adapter.model id row with
        | some conflict => exact .inl ⟨_, rfl, rfl, rfl⟩
        | none =>
          simp only
          cases hcommits : call.commits with
          | false =>
            simp only [Bool.false_eq_true, if_false]
            exact .inl ⟨_, rfl, rfl, rfl⟩
          | true =>
            simp only [if_true]
            refine .inr ⟨rfl, row, recordOf_of_adapter hadapter hrow, Option.isSome_iff_ne_none.2 hdeleted, ?_, ?_, ?_⟩
            · refine ⟨adapter, row, hadapter, hrow, ?_, ?_⟩
              · rintro new ⟨⟩
                rfl
              · exact get?_update_rows (get?_modify_row (Option.filter_eq_some_iff.1 hrow).1 _)
            · exact ⟨entryId, updateEntry_entry hdb hentry
                (f := fun record => { record with
                  status := .restored, restoredByUserId := call.userId, restoredAt := some call.now }) rfl rfl⟩
            · exact ⟨_, rfl, rfl⟩

theorem hardDeleteRecord_settles (hdb : ArchiveKept db) :
    Settles db entityType id .hardDeleted (fun _ => True) (fun _ => none) (hardDeleteRecord db entityType id call) := by
  unfold hardDeleteRecord
  cases hentry : db.archiveEntry entityType id with
  | none => exact .inl ⟨_, rfl, rfl, rfl⟩
  | some entry =>
    obtain ⟨entryId, record⟩ := entry
    simp only
    by_cases hstatus : record.status ≠ .archived
    · rw [if_pos hstatus]
      exact .inl ⟨_, rfl, rfl, rfl⟩
    rw [if_neg hstatus]
    cases hadapter : adapterFor entityType with
    | none => exact .inl ⟨_, rfl, rfl, rfl⟩
    | some adapter =>
      simp only
      cases hrow : entityRow db adapter id with
      | none => exact .inl ⟨_, rfl, rfl, rfl⟩
      | some row =>
        simp only
        by_cases hreferences : dependentReferences db adapter.model id call.references ≠ []
        · rw [if_pos hreferences]
          exact .inl ⟨_, rfl, rfl, rfl⟩
        rw [if_neg hreferences]
        cases hcommits : call.commits with
        | false =>
          simp only [Bool.false_eq_true, if_false]
          exact .inl ⟨_, rfl, rfl, rfl⟩
        | true =>
          simp only [if_true]
          refine .inr ⟨rfl, row, recordOf_of_adapter hadapter hrow, trivial, ?_, ?_, rfl⟩
          · refine ⟨adapter, row, hadapter, hrow, ?_, ?_⟩
            · rintro new ⟨⟩
            · exact get?_update_rows (get?_erase_row _)
          · exact ⟨entryId, updateEntry_entry hdb hentry
              (f := fun record => { record with
                status := .hardDeleted, hardDeletedByUserId := call.userId, hardDeletedAt := some call.now }) rfl rfl⟩

end

/-! ## Runs -/

/-- What a record is after an operation. -/
def archivedStatus : ArchiveOperation → ArchiveStatus
  | .archive => .archived
  | .restore => .restored
  | .hardDelete => .hardDeleted

section
variable {db : ArchiveDb} {a : ArchiveAction}

/-- A request is refused, or moves its record. -/
theorem archiveRequest_cases (hdb : ArchiveKept db) (a : ArchiveAction) :
    (∃ e, (archiveRequest db a).1 = .error e ∧ SameRecords db (archiveRequest db a).2) ∨
      ∃ found, RecordMoved db a.entityType a.entityId (archivedStatus a.operation) found (archiveRequest db a).2 := by
  obtain ⟨operation, entityType, entityId, call⟩ := a
  cases operation with
  | archive =>
    exact (archiveRecord_settles hdb).imp_right fun hmoved => by
      obtain ⟨-, row, -, -, hmoved⟩ := hmoved
      exact ⟨_, hmoved⟩
  | restore =>
    exact (restoreRecord_settles hdb).imp_right fun hmoved => by
      obtain ⟨-, row, -, -, hmoved⟩ := hmoved
      exact ⟨_, hmoved⟩
  | hardDelete =>
    exact (hardDeleteRecord_settles hdb).imp_right fun hmoved => by
      obtain ⟨-, row, -, -, hmoved⟩ := hmoved
      exact ⟨_, hmoved⟩

theorem SameRecords.recordOf {db' : ArchiveDb} (h : SameRecords db db') (entityType : String) (id : ℕ) :
    recordOf db' entityType id = recordOf db entityType id := by
  simp only [LcsSystem.recordOf, entityRow, h.1]

theorem SameRecords.archiveKept {db' : ArchiveDb} (h : SameRecords db db') (hdb : ArchiveKept db) : ArchiveKept db' := by
  refine archiveKept_of_inStep ?_ ?_
  · rw [h.2]
    exact hdb.single
  · intro i b hb
    rw [h.2] at hb
    rw [h.recordOf]
    exact hdb.inStep hb

theorem archiveKept_step (hdb : ArchiveKept db) (a : ArchiveAction) : ArchiveKept (archiveStep db a) := by
  rcases archiveRequest_cases hdb a with ⟨-, -, hsame⟩ | ⟨found, hmoved⟩
  · exact hsame.archiveKept hdb
  · exact hdb.moved hmoved

theorem archiveKept_fresh (rows : EntityModel → Table EntityRow) : ArchiveKept (.fresh rows) := by
  constructor <;> simp [ArchiveDb.fresh, Table.empty, Table.get?, Table.find]

theorem archiveKept_run (rows : EntityModel → Table EntityRow) (as : List ArchiveAction) :
    ArchiveKept (run archiveStep (.fresh rows) as) :=
  run_invariant ArchiveKept (fun _ a hdb => archiveKept_step hdb a) as (archiveKept_fresh rows)

/-- What is there of a record has the columns it had. -/
def SameColumns (db db' : ArchiveDb) : Prop :=
  ∀ entityType id row, recordOf db' entityType id = some row →
    ∃ old, recordOf db entityType id = some old ∧ row.columns = old.columns

theorem sameColumns_step (hdb : ArchiveKept db) (a : ArchiveAction) : SameColumns db (archiveStep db a) := by
  intro entityType id row hrow
  rcases archiveRequest_cases hdb a with ⟨-, -, hsame⟩ | ⟨found, hmoved⟩
  · rw [archiveStep, hsame.recordOf] at hrow
    exact ⟨row, hrow, rfl⟩
  · by_cases hthis : entityType = a.entityType ∧ id = a.entityId
    · obtain ⟨rfl, rfl⟩ := hthis
      rw [archiveStep, hmoved.recordOf_self] at hrow
      obtain ⟨adapter, old, hadapter, hold, hcolumns, -⟩ := hmoved.row
      exact ⟨old, recordOf_of_adapter hadapter hold, hcolumns row hrow⟩
    · rw [archiveStep, hmoved.recordOf_other hthis] at hrow
      exact ⟨row, hrow, rfl⟩

theorem sameColumns_run (hdb : ArchiveKept db) (as : List ArchiveAction) : SameColumns db (run archiveStep db as) := by
  refine run_relation_of_meets (P := fun _ _ => True) ArchiveKept SameColumns ?_ ?_ (fun _ a hdb _ => archiveKept_step hdb a)
    (fun _ a hdb _ => sameColumns_step hdb a) hdb (meets_of_forall_mem fun _ _ _ => trivial)
  · exact fun s entityType id row hrow => ⟨row, hrow, rfl⟩
  · intro s t u hst htu entityType id row hrow
    obtain ⟨old, hold, hcolumns⟩ := htu entityType id row hrow
    obtain ⟨first, hfirst, hfirstColumns⟩ := hst entityType id old hold
    exact ⟨first, hfirst, hcolumns.trans hfirstColumns⟩

theorem archiveRequest_error (hdb : ArchiveKept db) {e : Error} (h : (archiveRequest db a).1 = .error e) :
    SameRecords db (archiveRequest db a).2 := by
  obtain ⟨operation, entityType, entityId, call⟩ := a
  have hrefused : ∀ {status before after outcome}, Settles db entityType entityId status before after outcome →
      outcome.1 = .error e → SameRecords db outcome.2 := by
    rintro status before after outcome (⟨-, -, hsame⟩ | ⟨hok, -⟩) herror
    · exact hsame
    · rw [hok] at herror
      cases herror
  cases operation with
  | archive => exact hrefused (archiveRecord_settles hdb) h
  | restore => exact hrefused (restoreRecord_settles hdb) h
  | hardDelete => exact hrefused (hardDeleteRecord_settles hdb) h

theorem restoreRecord_ok (hdb : ArchiveKept db) {entityType : String} {id : ℕ} {call : ArchiveCall}
    (h : (restoreRecord db entityType id call).1 = .ok ⟨⟩) :
    ∃ row, recordOf db entityType id = some row ∧ row.deletedAt.isSome = true ∧
      recordOf (restoreRecord db entityType id call).2 entityType id = some (row.marked none none call.now) := by
  have hsettles : Settles db entityType id .restored (fun row => row.deletedAt.isSome = true)
      (fun row => some (row.marked none none call.now)) (restoreRecord db entityType id call) := restoreRecord_settles hdb
  rcases hsettles with ⟨e, he, -⟩ | ⟨-, row, hrow, hdeleted, hmoved⟩
  · rw [h] at he
    cases he
  · exact ⟨row, hrow, hdeleted, hmoved.recordOf_self⟩

end

/-- **Archive lifecycle**: after any sequence of requests on any rows, every entry says what became of its row, and a row
that is there has the columns it had. A refused request changes neither rows nor entries; a restore clears the deletion
marks and sets `updated_at`. -/
theorem archive_lifecycle (rows : EntityModel → Table EntityRow) (as : List ArchiveAction) :
    ArchiveKept (run archiveStep (.fresh rows) as) ∧
    SameColumns (.fresh rows) (run archiveStep (.fresh rows) as) ∧
    (∀ a e, (archiveRequest (run archiveStep (.fresh rows) as) a).1 = .error e →
      SameRecords (run archiveStep (.fresh rows) as) (archiveRequest (run archiveStep (.fresh rows) as) a).2) ∧
    ∀ entityType id call, (restoreRecord (run archiveStep (.fresh rows) as) entityType id call).1 = .ok ⟨⟩ →
      ∃ row, recordOf (run archiveStep (.fresh rows) as) entityType id = some row ∧ row.deletedAt.isSome = true ∧
        recordOf (restoreRecord (run archiveStep (.fresh rows) as) entityType id call).2 entityType id =
          some (row.marked none none call.now) := by
  have hkept := archiveKept_run rows as
  exact ⟨hkept, sameColumns_run (archiveKept_fresh rows) as, fun a e => archiveRequest_error hkept,
    fun entityType id call => restoreRecord_ok hkept⟩

/-- One place role. -/
def portRole : EntityModel → Table EntityRow :=
  Function.update (fun _ => .empty) .placeRole
    (Table.empty.insert ⟨[("code", .str "PORT"), ("name", .str "Port"), ("status", .str "INACTIVE")], 1, none, none⟩)

def callAt (now : ℕ) : ArchiveCall := ⟨some 7, now, [], true⟩

/-- The role is archived, restored, archived again, and a deletion is refused because route stops refer to it. -/
def roleInTurn : List ArchiveAction :=
  [⟨.archive, "placeRoles", 1, callAt 2⟩, ⟨.restore, "placeRoles", 1, callAt 3⟩, ⟨.archive, "placeRoles", 1, callAt 4⟩,
    ⟨.hardDelete, "placeRoles", 1, { callAt 5 with references := ["quotation_places (1)"] }⟩]

theorem archive_lifecycle_roleInTurn :
    ArchiveKept (run archiveStep (.fresh portRole) roleInTurn) ∧
    ∃ row, recordOf (run archiveStep (.fresh portRole) roleInTurn) "placeRoles" 1 = some row ∧
      recordOf (restoreRecord (run archiveStep (.fresh portRole) roleInTurn) "placeRoles" 1 (callAt 6)).2 "placeRoles" 1 =
        some (row.marked none none 6) := by
  obtain ⟨hkept, -, -, hrestore⟩ := archive_lifecycle portRole roleInTurn
  obtain ⟨row, hrow, -, hback⟩ := hrestore "placeRoles" 1 (callAt 6) (by decide +kernel)
  exact ⟨hkept, row, hrow, hback⟩

/-- A restore sets `updated_at`. -/
theorem restore_sets_updatedAt :
    ¬∀ (rows : EntityModel → Table EntityRow) (as : List ArchiveAction) (entityType : String) (id : ℕ) (call : ArchiveCall),
      (restoreRecord (run archiveStep (.fresh rows) as) entityType id call).1 = .ok ⟨⟩ →
      ∀ row, recordOf (run archiveStep (.fresh rows) as) entityType id = some row →
        recordOf (restoreRecord (run archiveStep (.fresh rows) as) entityType id call).2 entityType id =
          some { row with deletedAt := none, deletedByUserId := none } := by
  intro h
  have hrow := h portRole [⟨.archive, "placeRoles", 1, callAt 2⟩] "placeRoles" 1 (callAt 3) (by decide +kernel)
    ⟨[("code", .str "PORT"), ("name", .str "Port"), ("status", .str "INACTIVE")], 2, some 2, some 7⟩ (by decide +kernel)
  have hnot : recordOf (restoreRecord (run archiveStep (.fresh portRole) [⟨.archive, "placeRoles", 1, callAt 2⟩])
      "placeRoles" 1 (callAt 3)).2 "placeRoles" 1 ≠
        some ⟨[("code", .str "PORT"), ("name", .str "Port"), ("status", .str "INACTIVE")], 2, none, none⟩ := by
    decide +kernel
  exact hnot hrow

end LcsSystem
