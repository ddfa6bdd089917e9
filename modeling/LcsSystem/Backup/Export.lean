import LcsSystem.Lib.Json
import LcsSystem.Lib.Transition

/-!
# The export of changed rows

`_process_table`, `_sync_records`, `_existing_hashes` and `_flush_unsynced` of
`src/backend/app/modules/backup/service.py:391-474, 534-621` in the run of `_execute_run`, with `ensure_header`,
`append_rows` and `read_rows` of `src/backend/app/modules/backup/sheets.py:126-180`. Runs come one after the other, Google
Sheets is configured in each, and every call to it succeeds.

| here               | there                                                                          |
|--------------------|--------------------------------------------------------------------------------|
| `SourceRow`        | a row: its record id and the normalized values of its columns                  |
| `SourceRow.data`   | `data` of `serialize_row`                                                      |
| `Codec.digest`     | `_row_hash`                                                                    |
| `Codec.dumps`      | `json.dumps(…, ensure_ascii=False, sort_keys=True, default=str)`               |
| `none` of a commit | `IntegrityError` on `uq_backup_records_version`                                |

After a failed commit the session refuses the log line that the handler writes, so the error leaves the loop over the
tables and ends the run: the batches committed before stay, the tables behind are not looked at.
-/

namespace LcsSystem.Backup

def metaColumns : List String :=
  ["_backup_at", "_backup_version", "_table", "_record_id", "_row_hash", "_change_kind"]

structure SourceTable where
  name : String
  /-- The names of `backupable_columns`. -/
  columns : List String
  /-- No column of a model begins with an underscore. -/
  plain : ∀ column ∈ columns, column ∉ metaColumns

structure SourceRow where
  recordId : String
  value : String → Json

def SourceRow.data (table : SourceTable) (row : SourceRow) : List (String × Json) :=
  table.columns.map fun column => (column, row.value column)

structure BackupRecord where
  id : ℕ
  tableName : String
  recordId : String
  backupVersion : ℕ
  backupAt : String
  changeKind : String
  rowHash : String
  data : List (String × Json)
  synced : Bool
  deriving DecidableEq

structure BackupState where
  tableName : String
  recordId : String
  rowHash : String
  backupVersion : ℕ
  lastBackupAt : String
  deriving DecidableEq

structure Codec where
  digest : List (String × Json) → String
  dumps : Json → String

/-! ## The worksheets -/

structure Worksheet where
  header : List String := []
  rows : List (List Json) := []
  deriving DecidableEq

def invalidTitleChars : List Char := "[]:*?/\\".toList

/-- `sanitize_worksheet_title`. -/
def worksheetTitle (tableName : String) : String :=
  let cleaned := (tableName.toList.map fun c => if c ∈ invalidTitleChars then '_' else c).take 100
  if cleaned = [] then "backup" else String.ofList cleaned

/-- `ensure_header`. -/
def ensureHeader (existing columns : List String) : List String :=
  let desired := metaColumns ++ columns.filter fun column => decide (column ∉ metaColumns)
  existing ++ desired.filter fun column => decide (column ∉ existing)

/-- The tables of `discover_tables`: their names differ, also as titles. -/
structure Schema where
  tables : List SourceTable
  distinct : (tables.map fun table => worksheetTitle table.name).Nodup

def sheetCell (codec : Codec) : Json → Json
  | .null => .str ""
  | .dict entries => .str (codec.dumps (.dict entries))
  | .list items => .str (codec.dumps (.list items))
  | value => value

namespace BackupRecord

/-- The constraint `uq_backup_records_version`. -/
def key (r : BackupRecord) : String × String × String := (r.tableName, r.recordId, r.rowHash)

/-- `row_map`: the columns of the row go over those of the backup. -/
def rowMap (r : BackupRecord) (column : String) : Json :=
  match r.data.lookup column with
  | some value => value
  | none =>
    if column = "_backup_at" then .str r.backupAt
    else if column = "_backup_version" then .num r.backupVersion
    else if column = "_table" then .str r.tableName
    else if column = "_record_id" then .str r.recordId
    else if column = "_row_hash" then .str r.rowHash
    else if column = "_change_kind" then .str r.changeKind
    else .null

def sheetRow (codec : Codec) (header : List String) (r : BackupRecord) : List Json :=
  header.map fun column => sheetCell codec (r.rowMap column)

end BackupRecord

namespace Worksheet

def textCell : Json → Option String
  | .str text => some text
  | _ => none

/-- `_existing_hashes`; the cells of the column `_row_hash` are texts. -/
def existingHashes (w : Worksheet) : List String :=
  w.rows.filterMap fun row => row[w.header.idxOf "_row_hash"]?.bind textCell

end Worksheet

/-- The rows that `_sync_records` appends: a record whose hash is in the worksheet already is left out. -/
def newRows (codec : Codec) (header : List String) : List String → List BackupRecord → List (List Json)
  | _, [] => []
  | existing, r :: rs =>
    if r.rowHash ∈ existing then newRows codec header existing rs
    else r.sheetRow codec header :: newRows codec header (existing ++ [r.rowHash]) rs

/-! ## One table -/

/-- `backup_records` in the order of the ids and `backup_states`. -/
structure Journal where
  records : List BackupRecord := []
  states : List BackupState := []
  deriving DecidableEq

namespace Journal

def state? (j : Journal) (tableName recordId : String) : Option BackupState :=
  j.states.find? fun st => st.tableName == tableName && st.recordId == recordId

/-- The versions of one row, oldest first. -/
def history (j : Journal) (tableName recordId : String) : List BackupRecord :=
  j.records.filter fun r => r.tableName == tableName && r.recordId == recordId

def newRecord (codec : Codec) (now : String) (table : SourceTable) (j : Journal) (row : SourceRow) (version : ℕ)
    (kind : String) : BackupRecord :=
  ⟨j.records.length + 1, table.name, row.recordId, version, now, kind, codec.digest (row.data table), row.data table, false⟩

def processRow (codec : Codec) (now : String) (table : SourceTable) (j : Journal) (row : SourceRow) : Journal :=
  match j.state? table.name row.recordId with
  | some state =>
    if state.rowHash = codec.digest (row.data table) then j
    else
      { records := j.records ++ [j.newRecord codec now table row (state.backupVersion + 1) "update"]
        states := j.states.map fun st =>
          if st.tableName = table.name ∧ st.recordId = row.recordId then
            { st with rowHash := codec.digest (row.data table), backupVersion := state.backupVersion + 1, lastBackupAt := now }
          else st }
  | none =>
    { records := j.records ++ [j.newRecord codec now table row 1 "insert"]
      states := j.states ++ [⟨table.name, row.recordId, codec.digest (row.data table), 1, now⟩] }

/-- One batch and its commit. -/
def processBatch (codec : Codec) (now : String) (table : SourceTable) (j : Journal) (rows : List SourceRow) : Option Journal :=
  let flushed := rows.foldl (processRow codec now table) j
  if (flushed.records.map BackupRecord.key).Nodup then some flushed else none

/-- The batches one after the other, up to the first that does not commit. -/
def processBatches (codec : Codec) (now : String) (table : SourceTable) : Journal → List (List SourceRow) → Journal × Bool
  | j, [] => (j, true)
  | j, batch :: batches =>
    match processBatch codec now table j batch with
    | some flushed => processBatches codec now table flushed batches
    | none => (j, false)

/-- `UPDATE backup_records SET synced = true WHERE id IN …`. -/
def markSynced (j : Journal) (ids : List ℕ) : Journal :=
  { j with records := j.records.map fun r => if r.id ∈ ids then { r with synced := true } else r }

end Journal

def defaultBatchSize : ℕ := 500

/-- `LIMIT size OFFSET …` until nothing comes back; `fuel` bounds the number of the batches. -/
def chunks {α : Type*} (size : ℕ) : ℕ → List α → List (List α)
  | 0, _ => []
  | fuel + 1, rows =>
    match rows.take size with
    | [] => []
    | r :: rs => (r :: rs) :: chunks size fuel (rows.drop size)

structure Backups where
  journal : Journal := {}
  /-- By title. -/
  sheets : String → Worksheet := fun _ => {}

namespace Backups

/-- `_sync_records` for the records of one table. -/
def syncTable (codec : Codec) (s : Backups) (tableName : String) (columns : List String) (records : List BackupRecord) : Backups :=
  let title := worksheetTitle tableName
  let header := ensureHeader (s.sheets title).header columns
  let sheet : Worksheet := { s.sheets title with header := header }
  { journal := s.journal.markSynced (records.map BackupRecord.id)
    sheets := Function.update s.sheets title
      { sheet with rows := sheet.rows ++ newRows codec header sheet.existingHashes records } }

/-- `_process_table`, and whether all its batches committed. -/
def processTable (codec : Codec) (now : String) (s : Backups) (table : SourceTable) (rows : List SourceRow) : Backups × Bool :=
  if table.columns = [] then (s, true)
  else
    match s.journal.processBatches codec now table (chunks defaultBatchSize rows.length rows) with
    | (j, false) => ({ s with journal := j }, false)
    | (j, true) =>
      match j.records.drop s.journal.records.length with
      | [] => ({ s with journal := j }, true)
      | r :: rs => (syncTable codec { s with journal := j } table.name table.columns (r :: rs), true)

/-- The columns of a table that is gone are those of the backup. -/
def columnsOf (tables : List SourceTable) (tableName : String) : List String :=
  ((tables.find? fun t => t.name == tableName).map SourceTable.columns).getD metaColumns

/-- `_flush_unsynced`. -/
def flushUnsynced (codec : Codec) (tables : List SourceTable) (s : Backups) : Backups :=
  let pending := s.journal.records.filter fun r => !r.synced
  (pending.map BackupRecord.tableName).eraseDups.foldl (fun s tableName =>
    syncTable codec s tableName (columnsOf tables tableName) (pending.filter fun r => r.tableName == tableName)) s

def processTables (codec : Codec) (now : String) (source : String → List SourceRow) : Backups → List SourceTable → Backups × Bool
  | s, [] => (s, true)
  | s, table :: tables =>
    match processTable codec now s table (source table.name) with
    | (s, true) => processTables codec now source s tables
    | (s, false) => (s, false)

def execute (codec : Codec) (schema : Schema) (now : String) (source : String → List SourceRow) (s : Backups) :
    Backups × Bool :=
  processTables codec now source (flushUnsynced codec schema.tables s) schema.tables

end Backups

/-! ## Runs -/

/-- A run over the rows as they are at its time: what was inserted, changed and deleted since the last one is arbitrary.
The rows of a table come in the order of its key. -/
structure BackupRun where
  now : String
  source : String → List SourceRow

/-- After some runs: the tables, what the last run read, and whether it came to its end. -/
structure BackupHistory where
  backups : Backups := {}
  source : String → List SourceRow := fun _ => []
  succeeded : Bool := true

namespace BackupHistory

def step (codec : Codec) (schema : Schema) (s : BackupHistory) (a : BackupRun) : BackupHistory :=
  let result := s.backups.execute codec schema a.now a.source
  ⟨result.1, a.source, result.2⟩

/-! ## What is promised -/

/-- The versions of a row are numbered from 1, differ from one to the next, end in its content, which the state knows, and
stand in the worksheet. -/
structure Kept (codec : Codec) (s : Backups) (table : SourceTable) (row : SourceRow) : Prop where
  numbered : (s.journal.history table.name row.recordId).map BackupRecord.backupVersion =
    List.range' 1 (s.journal.history table.name row.recordId).length
  newest : ∃ r, (s.journal.history table.name row.recordId).getLast? = some r ∧ r.data = row.data table ∧
    ∃ st, s.journal.state? table.name row.recordId = some st ∧ st.rowHash = r.rowHash ∧ st.backupVersion = r.backupVersion
  differ : (s.journal.history table.name row.recordId).IsChain fun a b => a.data ≠ b.data
  exported : ∀ r ∈ s.journal.history table.name row.recordId,
    r.sheetRow codec (s.sheets (worksheetTitle table.name)).header ∈ (s.sheets (worksheetTitle table.name)).rows

/-- The last run came to its end, and every row it found is kept; a table without columns to back up is none of it. -/
def Complete (codec : Codec) (schema : Schema) (s : BackupHistory) : Prop :=
  s.succeeded = true ∧
    ∀ table ∈ schema.tables, table.columns ≠ [] → ∀ row ∈ s.source table.name, Kept codec s.backups table row

/-- Where a stored version has the hash of the row, it is the newest version of that row and has its content. -/
def Unseen (codec : Codec) (j : Journal) (table : SourceTable) (row : SourceRow) : Prop :=
  ∀ r ∈ j.records, r.tableName = table.name → r.rowHash = codec.digest (row.data table) →
    r.data = row.data table ∧ (j.history table.name row.recordId).getLast? = some r

/-- No row has gone back to an earlier content, and the rows of a table share neither record id nor hash. -/
def NoReturn (codec : Codec) (schema : Schema) (s : BackupHistory) (a : BackupRun) : Prop :=
  ∀ table ∈ schema.tables, table.columns ≠ [] → ((a.source table.name).map SourceRow.recordId).Nodup ∧
    ((a.source table.name).map fun row => codec.digest (row.data table)).Nodup ∧
    ∀ row ∈ a.source table.name, Unseen codec s.backups.journal table row

instance (codec : Codec) (j : Journal) (table : SourceTable) (row : SourceRow) : Decidable (Unseen codec j table row) :=
  inferInstanceAs (Decidable (∀ r ∈ _, _))

instance (codec : Codec) (schema : Schema) (s : BackupHistory) (a : BackupRun) :
    Decidable (NoReturn codec schema s a) :=
  inferInstanceAs (Decidable (∀ table ∈ schema.tables, _))

end BackupHistory
end LcsSystem.Backup
