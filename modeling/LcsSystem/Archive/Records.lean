import LcsSystem.Settings.AppConfig
import LcsSystem.Operations.ComponentValues

/-!
# Archiving, restoring and permanently deleting records

`src/backend/app/modules/archive/service.py`: an archived record stays in its table with `deleted_at` set, and
`archive_records` has one entry that says what became of it.

| here             | there                                                              |
|------------------|--------------------------------------------------------------------|
| `ArchiveSession` | the `AsyncSession` of a request: what is pending and what is committed |
| `ArchiveCall`    | the context of a request, and what the database answers it         |

The references from tables that are not modelled and whether a commit goes through are part of the call. Left out:
`before` and `after` of audit events, and what `jsonable` makes of dates.
-/

namespace LcsSystem
open Relational

/-! ## Tables -/

inductive EntityModel
  | businessParty | placeRole | partyRole | tradeDirection | containerType | transportType | identityType | capacityUnit
  | transportAsset | feeType | currency | documentType | moduleRecord
  deriving DecidableEq

def EntityModel.tableName : EntityModel → String
  | .businessParty => "business_parties"
  | .placeRole => "place_roles"
  | .partyRole => "party_roles"
  | .tradeDirection => "trade_directions"
  | .containerType => "container_types"
  | .transportType => "transport_types"
  | .identityType => "transport_asset_identity_types"
  | .capacityUnit => "capacity_units"
  | .transportAsset => "transport_assets"
  | .feeType => "fee_types"
  | .currency => "currencies"
  | .documentType => "document_types"
  | .moduleRecord => "module_records"

/-- The columns of the unique indexes, which see rows that are not archived. -/
def EntityModel.uniqueColumns : EntityModel → List (List String)
  | .businessParty => [["party_code"], ["vat_tin"]]
  | .partyRole => [["code"], ["name"]]
  | .identityType => [["name"]]
  | .transportAsset => [["asset_code"], ["transport_type_id", "identity"]]
  | .moduleRecord => []
  | _ => [["code"]]

/-- The foreign keys to tables whose rows can be archived. -/
def EntityModel.foreignKeys : EntityModel → List (String × EntityModel)
  | .identityType => [("transport_type_id", .transportType)]
  | .transportAsset => [("transport_type_id", .transportType), ("owner_party_id", .businessParty),
      ("operator_party_id", .businessParty)]
  | _ => []

/-- A row: `columns` are all but the primary key, `updated_at` and the two deletion marks. -/
structure EntityRow where
  columns : List (String × Json)
  updatedAt : ℕ
  deletedAt : Option ℕ
  deletedByUserId : Option ℕ
  deriving DecidableEq

def EntityRow.column (row : EntityRow) (name : String) : Json := (row.columns.lookup name).getD .null

inductive ArchiveStatus
  | archived | restored | hardDeleted
  deriving DecidableEq

structure ArchiveRecord where
  entityType : String
  entityId : ℕ
  recordReference : String
  status : ArchiveStatus
  deletedByUserId : Option ℕ
  originalOwnerUserId : Option ℤ
  deletedAt : ℕ
  restoredByUserId : Option ℕ
  restoredAt : Option ℕ
  hardDeletedByUserId : Option ℕ
  hardDeletedAt : Option ℕ
  snapshot : List (String × Json)
  deriving DecidableEq

/-- An audit event of type `ARCHIVE`. -/
structure ArchiveAudit where
  entityType : String
  entityId : ℕ
  action : String
  result : String
  reason : Option String
  reference : String
  deriving DecidableEq

structure ArchiveDb where
  rows : EntityModel → Table EntityRow
  entries : Table ArchiveRecord
  audit : List ArchiveAudit

/-- Nothing has been archived yet. -/
def ArchiveDb.fresh (rows : EntityModel → Table EntityRow) : ArchiveDb := ⟨rows, .empty, []⟩

/-! ## Adapters -/

structure ArchiveAdapter where
  entityType : String
  model : EntityModel
  referenceField : String
  label : String
  collection : Option String
  deriving DecidableEq

/-- `_registry`. -/
def archiveRegistry : List ArchiveAdapter :=
  [⟨"businessParties", .businessParty, "legal_name", "Business Party", none⟩,
    ⟨"placeRoles", .placeRole, "name", "Place Role", none⟩,
    ⟨"partyRoles", .partyRole, "name", "Party Role", none⟩,
    ⟨"tradeDirections", .tradeDirection, "name", "Trade Direction", none⟩,
    ⟨"containerTypes", .containerType, "name", "Container Type", none⟩,
    ⟨"transportTypes", .transportType, "name", "Transport Type", none⟩,
    ⟨"transportAssetIdentityTypes", .identityType, "name", "Identity Type", none⟩,
    ⟨"capacityUnits", .capacityUnit, "code", "Capacity Unit", none⟩,
    ⟨"transportAssets", .transportAsset, "identity", "Transport Asset", none⟩,
    ⟨"feeTypes", .feeType, "name", "Fee Type", none⟩,
    ⟨"currencies", .currency, "name", "Currency", none⟩,
    ⟨"documentTypes", .documentType, "name", "Document Type", none⟩]

/-- `ARCHIVABLE_GENERIC_COLLECTIONS` with `_humanize` of each. -/
def archivableGenericCollections : List (String × String) :=
  [("companies", "Companies"), ("shipments", "Shipments"), ("documents", "Documents"), ("deliveries", "Deliveries")]

def genericAdapter (collection : String × String) : ArchiveAdapter :=
  ⟨collection.1, .moduleRecord, "record_no", collection.2, some collection.1⟩

/-- `adapter_for`. -/
def adapterFor (entityType : String) : Option ArchiveAdapter :=
  (archiveRegistry.find? fun adapter => adapter.entityType == entityType).or
    ((archivableGenericCollections.find? fun c => c.1 == entityType).map genericAdapter)

/-- `_entity`. -/
def entityRow (db : ArchiveDb) (adapter : ArchiveAdapter) (id : ℕ) : Option EntityRow :=
  ((db.rows adapter.model).get? id).filter fun row => adapter.collection.all fun c => row.column "collection" == .str c

/-- The row of an entry. -/
def recordOf (db : ArchiveDb) (entityType : String) (id : ℕ) : Option EntityRow :=
  (adapterFor entityType).bind fun adapter => entityRow db adapter id

/-! ## What an entry remembers -/

def mentions (field token : String) : Bool := field.toList.tails.any token.toList.isPrefixOf

/-- A field of `data` with what looks like a secret masked. -/
def maskedField (entry : String × Json) : String × Json :=
  let field := String.ofList (entry.1.toList.map Char.toLower)
  if ["password", "secret", "token"].any (mentions field) then (entry.1, .str "********") else entry

def optionalNumber : Option ℕ → Json
  | some n => .num n
  | none => .null

/-- `_safe_snapshot`. -/
def safeSnapshot (id : ℕ) (row : EntityRow) : List (String × Json) :=
  ("id", .num id) :: (row.columns.filterMap fun entry =>
    if ["password_hash", "encrypted_password", "password_secret_reference"].contains entry.1 then none
    else if entry.1 = "data" then
      match entry.2 with
      | .dict fields => some ("data", .dict (fields.map maskedField))
      | _ => some entry
    else some entry) ++
  [("updated_at", .num row.updatedAt), ("deleted_at", optionalNumber row.deletedAt),
    ("deleted_by_user_id", optionalNumber row.deletedByUserId)]

/-- `_owner_id`. -/
def ownerId (row : EntityRow) : Option ℤ :=
  match row.column "created_by_user_id" with
  | .null =>
    match row.column "data" with
    | .dict fields =>
      ((fields.lookup "createdByUserId").filter fun v => truthy (some v)).or (fields.lookup "created_by_user_id") |>.bind
        integerOfJson
    | _ => none
  | value => integerOfJson value

/-- The reference of a row: its reference field, if there is text in it. -/
def recordReference (adapter : ArchiveAdapter) (id : ℕ) (row : EntityRow) : String :=
  match row.column adapter.referenceField with
  | .str s => if s = "" then adapter.label ++ " #" ++ toString id else s
  | _ => adapter.label ++ " #" ++ toString id

/-! ## Sessions -/

/-- What a session has committed, and what it would commit. -/
structure ArchiveSession where
  committed : ArchiveDb
  pending : ArchiveDb

namespace ArchiveSession

def begin (db : ArchiveDb) : ArchiveSession := ⟨db, db⟩

def write (s : ArchiveSession) (f : ArchiveDb → ArchiveDb) : ArchiveSession := { s with pending := f s.pending }

def commit (s : ArchiveSession) : ArchiveSession := ⟨s.pending, s.pending⟩

def rollback (s : ArchiveSession) : ArchiveSession := ⟨s.committed, s.committed⟩

end ArchiveSession

namespace ArchiveDb

/-- `write_audit`. -/
def writeAudit (event : ArchiveAudit) (db : ArchiveDb) : ArchiveDb := { db with audit := db.audit ++ [event] }

/-- `UPDATE` of a row; `updated_at` has `onupdate=utcnow`. -/
def updateRow (model : EntityModel) (id now : ℕ) (f : EntityRow → EntityRow) (db : ArchiveDb) : ArchiveDb :=
  { db with rows := Function.update db.rows model ((db.rows model).modify id fun row => { f row with updatedAt := now }) }

/-- `session.delete(row)`. -/
def deleteRow (model : EntityModel) (id : ℕ) (db : ArchiveDb) : ArchiveDb :=
  { db with rows := Function.update db.rows model ((db.rows model).erase fun i _ => i == id) }

def updateEntry (entryId : ℕ) (f : ArchiveRecord → ArchiveRecord) (db : ArchiveDb) : ArchiveDb :=
  { db with entries := db.entries.modify entryId f }

def insertEntry (record : ArchiveRecord) (db : ArchiveDb) : ArchiveDb := { db with entries := db.entries.insert record }

/-- `_archive_entry`. -/
def archiveEntry (db : ArchiveDb) (entityType : String) (id : ℕ) : Option (ℕ × ArchiveRecord) :=
  db.entries.rows.find? fun r => r.2.entityType == entityType && r.2.entityId == id

end ArchiveDb

/-! ## The three operations -/

/-- Who calls, when, which tables that are not modelled still refer to the row, and whether the first commit goes
through. -/
structure ArchiveCall where
  userId : Option ℕ
  now : ℕ
  references : List String
  commits : Bool

/-- The entry of a row that is archived now. -/
def archivedRecord (adapter : ArchiveAdapter) (id : ℕ) (row : EntityRow) (call : ArchiveCall) : ArchiveRecord where
  entityType := adapter.entityType
  entityId := id
  recordReference := recordReference adapter id row
  status := .archived
  deletedByUserId := call.userId
  originalOwnerUserId := ownerId row
  deletedAt := call.now
  restoredByUserId := none
  restoredAt := none
  hardDeletedByUserId := none
  hardDeletedAt := none
  snapshot := safeSnapshot id row

/-- The entry that is there is used again. -/
def putArchivedRecord (record : ArchiveRecord) (db : ArchiveDb) : ArchiveDb :=
  match db.archiveEntry record.entityType record.entityId with
  | none => db.insertEntry record
  | some (entryId, _) => db.updateEntry entryId fun _ => record

/-- `archive_record`. -/
def archiveRecord (db : ArchiveDb) (entityType : String) (id : ℕ) (call : ArchiveCall) : Result PUnit.{1} × ArchiveDb :=
  match adapterFor entityType with
  | none => (.error (.notFound "This entity type is not supported by the archive."), db)
  | some adapter =>
    match entityRow db adapter id with
    | none => (.error (.notFound "Record not found."), db)
    | some row =>
      if row.deletedAt.isSome then (.error (.conflict "ALREADY_ARCHIVED" "The record is already archived." []), db)
      else
        let record := archivedRecord adapter id row call
        let written := ArchiveSession.begin db
          |>.write (putArchivedRecord record)
          |>.write (ArchiveDb.updateRow adapter.model id call.now fun row =>
              { row with deletedAt := some call.now, deletedByUserId := call.userId })
          |>.write (ArchiveDb.writeAudit ⟨entityType, id, "DELETE", "SUCCESS", none, record.recordReference⟩)
        if call.commits then (.ok ⟨⟩, written.commit.committed)
        else (.error (.database "The transaction was not committed."), written.rollback.committed)

/-- `_restore_conflict`: a comparison with `None` is `IS NULL`. -/
def restoreConflict (db : ArchiveDb) (model : EntityModel) (id : ℕ) (row : EntityRow) : Option String :=
  if model.uniqueColumns.any fun names => (db.rows model).rows.any fun other =>
      names.all (fun name => other.2.column name == row.column name) && other.1 != id && other.2.deletedAt.isNone then
    some "An active record already uses the same unique value."
  else
    model.foreignKeys.findSome? fun key =>
      match row.column key.1 with
      | .num parentId =>
        match (db.rows key.2).get? parentId.num.toNat with
        | none => some ("Required dependency " ++ key.2.tableName ++ " no longer exists.")
        | some parent =>
          if parent.deletedAt.isSome then some ("Required dependency " ++ key.2.tableName ++ " is still archived.") else none
      | _ => none

/-- `restore_record`. -/
def restoreRecord (db : ArchiveDb) (entityType : String) (id : ℕ) (call : ArchiveCall) : Result PUnit.{1} × ArchiveDb :=
  match db.archiveEntry entityType id with
  | none => (.error (.notFound "Archived record not found."), db)
  | some (entryId, record) =>
    if record.status ≠ .archived then (.error (.conflict "ARCHIVE_NOT_ACTIVE" "The record is no longer archived." []), db)
    else
      match adapterFor entityType with
      | none => (.error (.notFound "This entity type is not supported by the archive."), db)
      | some adapter =>
        match entityRow db adapter id with
        | none => (.error (.conflict "RESTORE_IMPOSSIBLE"
            "The source record was permanently deleted and cannot be restored." []), db)
        | some row =>
          if row.deletedAt = none then (.error (.conflict "ALREADY_RESTORED" "The record has already been restored." []), db)
          else
            let session := ArchiveSession.begin db
            match restoreConflict db adapter.model id row with
            | some conflict =>
              let failed := session.write
                (ArchiveDb.writeAudit ⟨entityType, id, "RESTORE", "FAILED", some conflict, record.recordReference⟩)
              (.error (.conflict "RESTORE_CONFLICT" conflict []), failed.commit.committed)
            | none =>
              let written := session
                |>.write (ArchiveDb.updateRow adapter.model id call.now fun row =>
                    { row with deletedAt := none, deletedByUserId := none })
                |>.write (ArchiveDb.updateEntry entryId fun record =>
                    { record with status := .restored, restoredByUserId := call.userId, restoredAt := some call.now })
                |>.write (ArchiveDb.writeAudit ⟨entityType, id, "RESTORE", "SUCCESS", none, record.recordReference⟩)
              if call.commits then (.ok ⟨⟩, written.commit.committed)
              else (.error (.database "The transaction was not committed."), written.rollback.committed)

/-- `dependent_references`: the tables that refer to the row, those that are not modelled among them. -/
def dependentReferences (db : ArchiveDb) (model : EntityModel) (id : ℕ) (others : List String) : List String :=
  let known := [EntityModel.identityType, .transportAsset].flatMap fun table => table.foreignKeys.filterMap fun key =>
    let count := (db.rows table).rows.countP fun r => r.2.column key.1 == .num id
    if key.2 = model ∧ count ≠ 0 then some (table.tableName ++ " (" ++ toString count ++ ")") else none
  (known ++ others).dedup.insertionSort fun a b => a ≤ b

/-- `hard_delete_record`. -/
def hardDeleteRecord (db : ArchiveDb) (entityType : String) (id : ℕ) (call : ArchiveCall) : Result PUnit.{1} × ArchiveDb :=
  match db.archiveEntry entityType id with
  | none => (.error (.notFound "Archived record not found."), db)
  | some (entryId, record) =>
    if record.status ≠ .archived then (.error (.conflict "ARCHIVE_NOT_ACTIVE" "The record is no longer archived." []), db)
    else
      match adapterFor entityType with
      | none => (.error (.notFound "This entity type is not supported by the archive."), db)
      | some adapter =>
        match entityRow db adapter id with
        | none => (.error (.conflict "ALREADY_HARD_DELETED" "The source record has already been permanently deleted." []), db)
        | some _ =>
          let session := ArchiveSession.begin db
          let audit (result : String) (reason : Option String) :=
            ArchiveDb.writeAudit ⟨entityType, id, "HARD_DELETE", result, reason, record.recordReference⟩
          let dependencies := dependentReferences db adapter.model id call.references
          if dependencies ≠ [] then
            let reason := "Permanent deletion is blocked by related data: " ++ ", ".intercalate dependencies ++ "."
            (.error (.conflict "HARD_DELETE_BLOCKED" reason []), (session.write (audit "FAILED" (some reason))).commit.committed)
          else
            let written := session
              |>.write (audit "SUCCESS" none)
              |>.write (ArchiveDb.updateEntry entryId fun record =>
                  { record with status := .hardDeleted, hardDeletedByUserId := call.userId, hardDeletedAt := some call.now })
              |>.write (ArchiveDb.deleteRow adapter.model id)
            if call.commits then (.ok ⟨⟩, written.commit.committed)
            else
              let reason := "A database relationship still references this record."
              (.error (.conflict "HARD_DELETE_BLOCKED" reason []),
                (written.rollback.write (audit "FAILED" (some reason))).commit.committed)

end LcsSystem
