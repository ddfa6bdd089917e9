import LcsSystem.Backup.Cells
import LcsSystem.Backup.ExportRuns
import LcsSystem.Lib.Entries

/-!
# Restoring from the worksheets

`restore_from_sheets` of `src/backend/app/modules/backup/service.py:649-746` over what `read_rows` of `sheets.py:179-183`
returns. Google Sheets is configured and answers, and the database accepts every statement.

| here                   | there                                                                    |
|------------------------|--------------------------------------------------------------------------|
| `StoredRow`            | a row, by column                                                          |
| `TableModel.default`   | what an insert that leaves a column out stores there                       |
| `Worksheet.shownRows`  | the rows below the header, without the empty cells at their ends            |
| `Latest`               | `versions` and `latest`: by record id, the newest version and its row        |
| `RestoredTable`        | an entry of `tables` in the answer                                           |

The key of a row is read from its record id, its other columns from the cells of its newest version, so the restore of one
table is the restore of the rows that were seen last, one key at a time.
-/

namespace LcsSystem.Backup
open Entries

abbrev StoredRow := String → Value

structure TableModel extends SourceTable where
  primaryKey : List String
  keyed : primaryKey ≠ []
  type : String → ColumnType
  default : String → Value

def TableModel.key (t : TableModel) (row : StoredRow) : List Value := t.primaryKey.map row

/-- `str(value)`. -/
def strOfValue : Value → String
  | .null => "None"
  | .bool b => if b then "True" else "False"
  | .int z => toString z
  | .decimal d => decimalStr d
  | .dateTime t => String.ofList ((isoTime t).toList.map fun c => if c = 'T' then ' ' else c)
  | .date d => isoformat d
  | .json v => strOf v
  | .text s => s

/-- `"|".join(…)`. -/
def recordIdOf (key : List Value) : String :=
  String.ofList (['|'].intercalate (key.map fun value => (strOfValue value).toList))

/-- `serialize_row`. -/
def TableModel.sourceRow (t : TableModel) (row : StoredRow) : SourceRow where
  recordId := recordIdOf (t.key row)
  value column := normalize (row column)

/-! ## The rows of a worksheet -/

/-- `read_rows`. -/
def Worksheet.shownRows (display : Display) (w : Worksheet) : List (List String) :=
  w.rows.map fun row => (row.map display.shows).rdropWhile fun cell => cell == ""

/-- `index`: of two columns of one name, the later. -/
def position (header : List String) (column : String) : Option ℕ := header.zipIdx.reverse.lookup column

/-- The cell of a column, empty where the row is too short. -/
def cellOf (header : List String) (row : List String) (column : String) : String :=
  ((position header column).bind fun i => row[i]?).getD ""

abbrev Latest := List (String × ℤ × List String)

def keepLatest (header : List String) (latest : Latest) (row : List String) : Latest :=
  let recordId := cellOf header row "_record_id"
  if recordId = "" then latest
  else
    let version := (intOfText (cellOf header row "_backup_version")).getD 0
    if (latest.lookup recordId).all fun kept => kept.1 ≤ version then overlay latest [(recordId, version, row)] else latest

/-! ## The rows of a table -/

variable (loads : String → Option Json)

/-- `values`: the key over the cells. -/
def readValues (t : TableModel) (header : List String) (recordId : String) (row : List String) (column : String) :
    Option Value :=
  match (t.primaryKey.zip (recordId.toList.splitOn '|')).lookup column with
  | some text => some (coerceValue loads (t.type column) (String.ofList text))
  | none =>
    if column ∈ t.columns ∧ column ∈ header then some (coerceValue loads (t.type column) (cellOf header row column)) else none

/-- An entry of `values_by_column`; a key that does not read leaves the row out. -/
def restoredValues (t : TableModel) (header : List String) (recordId : String) (row : List String) :
    Option (String → Option Value) :=
  let values := readValues loads t header recordId row
  if t.primaryKey.any fun column => (values column).getD .null = .null then none else some values

def isAt (t : TableModel) (values : String → Option Value) (row : StoredRow) : Bool :=
  t.primaryKey.all fun column => values column = some (row column)

/-- The update of a row, but for its key. -/
def updatedRow (t : TableModel) (values : String → Option Value) (row : StoredRow) : StoredRow := fun column =>
  if column ∈ t.primaryKey then row column else (values column).getD (row column)

def insertedRow (t : TableModel) (values : String → Option Value) : StoredRow := fun column =>
  (values column).getD (t.default column)

structure RestoredTable where
  table : String
  inserted : ℕ
  updated : ℕ
  deriving DecidableEq

def restoreRow (t : TableModel) (s : List StoredRow × RestoredTable) (values : String → Option Value) :
    List StoredRow × RestoredTable :=
  if s.1.any (isAt t values) then
    (s.1.map fun row => if isAt t values row then updatedRow t values row else row, { s.2 with updated := s.2.updated + 1 })
  else (s.1 ++ [insertedRow t values], { s.2 with inserted := s.2.inserted + 1 })

/-- One table: its rows, and its entry in the answer. -/
def restoreTable (display : Display) (t : TableModel) (w : Worksheet) (rows : List StoredRow) :
    List StoredRow × Option RestoredTable :=
  if position w.header "_record_id" = none ∨ position w.header "_backup_version" = none then (rows, none)
  else
    match (w.shownRows display).foldl (keepLatest w.header) [] with
    | [] => (rows, none)
    | entry :: latest =>
      let values := (entry :: latest).filterMap fun e => restoredValues loads t w.header e.1 e.2.2
      let restored := values.foldl (restoreRow t) (rows, ⟨t.name, 0, 0⟩)
      (restored.1, some restored.2)

/-- The tables in the order of the schema, by name. -/
def restoreTables (display : Display) (sheets : String → Worksheet) (selected : List String) :
    (String → List StoredRow) × List RestoredTable → List TableModel → (String → List StoredRow) × List RestoredTable
  | s, [] => s
  | s, t :: tables =>
    if selected ≠ [] ∧ t.name ∉ selected then restoreTables display sheets selected s tables
    else
      let restored := restoreTable loads display t (sheets (worksheetTitle t.name)) (s.1 t.name)
      restoreTables display sheets selected (Function.update s.1 t.name restored.1, s.2 ++ restored.2.toList) tables

structure RestoreSummary where
  restored : ℕ
  inserted : ℕ
  updated : ℕ
  tables : List RestoredTable
  deriving DecidableEq

def summaryOf (tables : List RestoredTable) : RestoreSummary where
  restored := (tables.map fun t => t.inserted + t.updated).sum
  inserted := (tables.map RestoredTable.inserted).sum
  updated := (tables.map RestoredTable.updated).sum
  tables := tables

def backupConfirm : String := "RESTORE"

/-- `restore_from_sheets`. -/
def restoreFromSheets (display : Display) (models : List TableModel) (sheets : String → Worksheet) (confirm : String)
    (selected : List String) (db : String → List StoredRow) : Except String ((String → List StoredRow) × RestoreSummary) :=
  if upper (strip confirm) ≠ backupConfirm then
    .error ("Typed confirmation '" ++ backupConfirm ++ "' is required.")
  else
    let restored := restoreTables loads display sheets selected (db, []) models
    .ok (restored.1, summaryOf restored.2)

/-! ## Keys and record ids -/

/-- A value of a key that is read back from a record id. -/
def ColumnType.holdsKey : ColumnType → Value → Bool
  | .integer, .int z => decide (z.natAbs < 10 ^ 15)
  | .text, .text s => decide (s ≠ "" ∧ '|' ∉ s.toList)
  | _, _ => false

/-- The values of the row are of the types of its columns, and a JSON value is read back from its text. -/
structure TableModel.HoldsRow (codec : Codec) (reader : JsonReader) (t : TableModel) (row : StoredRow) : Prop where
  key : ∀ column ∈ t.primaryKey, (t.type column).holdsKey (row column) = true
  columns : ∀ column ∈ t.columns, (t.type column).holds (row column) = true
  json : ∀ column ∈ t.columns, reader.reads codec (row column) = true

instance (codec : Codec) (reader : JsonReader) (t : TableModel) (row : StoredRow) : Decidable (t.HoldsRow codec reader row) :=
  decidable_of_iff ((∀ column ∈ t.primaryKey, (t.type column).holdsKey (row column) = true) ∧
    (∀ column ∈ t.columns, (t.type column).holds (row column) = true) ∧
    ∀ column ∈ t.columns, reader.reads codec (row column) = true)
    ⟨fun h => ⟨h.1, h.2.1, h.2.2⟩, fun h => ⟨h.key, h.columns, h.json⟩⟩

theorem strOfValue_of_holdsKey {type : ColumnType} {v : Value} (h : type.holdsKey v = true) :
    '|' ∉ (strOfValue v).toList ∧ strOfValue v ≠ "" ∧ ∀ loads, coerceValue loads type (strOfValue v) = v := by
  cases type with
  | integer =>
    cases v with
    | int z =>
      have hread := intOfText_toString (of_decide_eq_true h)
      have hne : toString z ≠ "" := decimalOfText_ne (decimalOfText_toString z)
      refine ⟨?_, hne, fun loads => ?_⟩
      · rw [strOfValue, toList_toString_int]
        intro hmem
        rcases List.mem_append.1 hmem with hmem | hmem
        · split at hmem
          · exact absurd (List.mem_singleton.1 hmem) (by decide)
          · cases hmem
        · exact absurd (isDigit_toString hmem) (by decide)
      · simp only [strOfValue, coerceValue, if_neg hne, hread]
        rfl
    | _ => cases h
  | text =>
    cases v with
    | text s =>
      have hs : s ≠ "" ∧ '|' ∉ s.toList := of_decide_eq_true h
      refine ⟨hs.2, hs.1, fun loads => ?_⟩
      simp only [strOfValue, coerceValue]
      exact if_neg hs.1
    | _ => cases h
  | _ => cases h

variable {t : TableModel} {codec : Codec} {reader : JsonReader}

theorem splitOn_recordIdOf {row : StoredRow} (h : t.HoldsRow codec reader row) :
    (recordIdOf (t.key row)).toList.splitOn '|' = t.primaryKey.map fun column => (strOfValue (row column)).toList := by
  rw [recordIdOf, String.toList_ofList, List.splitOn_intercalate]
  · rw [TableModel.key, List.map_map]
    rfl
  · intro text htext
    obtain ⟨v, hv, rfl⟩ := List.mem_map.1 htext
    obtain ⟨column, hcolumn, rfl⟩ := List.mem_map.1 hv
    exact (strOfValue_of_holdsKey (h.key column hcolumn)).1
  · simpa [TableModel.key] using t.keyed

theorem recordIdOf_ne {row : StoredRow} (h : t.HoldsRow codec reader row) : recordIdOf (t.key row) ≠ "" := by
  intro hempty
  have hsplit := splitOn_recordIdOf h
  rw [hempty] at hsplit
  obtain ⟨column, columns, hkey⟩ := List.exists_cons_of_ne_nil t.keyed
  rw [hkey] at hsplit
  have hfirst := (List.cons.inj hsplit).1
  have hne := (strOfValue_of_holdsKey (h.key column (hkey ▸ List.mem_cons_self))).2.1
  exact hne (String.toList_inj.1 hfirst.symm)

/-- Rows of one record id have one key. -/
theorem key_eq_of_recordId {a b : StoredRow} (ha : t.HoldsRow codec reader a) (hb : t.HoldsRow codec reader b)
    (h : recordIdOf (t.key a) = recordIdOf (t.key b)) : t.key a = t.key b := by
  have hsplit := splitOn_recordIdOf ha
  rw [h, splitOn_recordIdOf hb] at hsplit
  refine List.map_congr_left fun column hcolumn => ?_
  have htext := List.map_inj_left.1 hsplit column hcolumn
  have hread := (strOfValue_of_holdsKey (ha.key column hcolumn)).2.2 fun _ => none
  rw [← String.toList_inj.1 htext, (strOfValue_of_holdsKey (hb.key column hcolumn)).2.2] at hread
  exact hread.symm

/-! ## What is read from a record -/

theorem position_of_mem {header : List String} {column : String} (h : column ∈ header) :
    ∃ i, position header column = some i ∧ header[i]? = some column := by
  cases hposition : position header column with
  | none =>
    rw [position, lookup_eq_none, List.map_reverse, List.mem_reverse, List.zipIdx_map_fst] at hposition
    exact absurd h hposition
  | some i =>
    have hmem := List.mem_reverse.1 (Entries.mem_of_lookup hposition)
    exact ⟨i, rfl, (List.mem_zipIdx_iff_getElem? (x := (column, i))).1 hmem⟩

/-- Cells that are left out at the end of a row read as empty. -/
theorem getD_rdropWhile (cells : List String) (i : ℕ) :
    ((cells.rdropWhile fun cell => cell == "")[i]?).getD "" = (cells[i]?).getD "" := by
  have hsplit : (cells.rdropWhile fun cell => cell == "") ++ (cells.rtakeWhile fun cell => cell == "") = cells :=
    List.rdropWhile_append_rtakeWhile
  by_cases hi : i < (cells.rdropWhile fun cell => cell == "").length
  · conv_rhs => rw [← hsplit]
    rw [List.getElem?_append_left hi]
  · have hempty : (cells[i]?).getD "" = "" := by
      conv_lhs => rw [← hsplit]
      rw [List.getElem?_append_right (by omega)]
      cases hcell : (cells.rtakeWhile fun cell => cell == "")[i - (cells.rdropWhile fun cell => cell == "").length]? with
      | none => rfl
      | some cell => simpa using List.mem_rtakeWhile_imp (List.mem_of_getElem? hcell)
    rw [hempty, List.getElem?_eq_none (by omega)]
    rfl

/-- A row of the worksheet as it is read. -/
def shownRow (codec : Codec) (display : Display) (header : List String) (r : BackupRecord) : List String :=
  ((r.sheetRow codec header).map display.shows).rdropWhile fun cell => cell == ""

variable {display : Display} {header : List String}

theorem cellOf_shownRow {r : BackupRecord} {column : String} (h : column ∈ header) :
    cellOf header (shownRow codec display header r) column = display.shows (sheetCell codec (r.rowMap column)) := by
  obtain ⟨i, hi, hheader⟩ := position_of_mem h
  rw [cellOf, hi, Option.bind_some, shownRow, getD_rdropWhile, BackupRecord.sheetRow]
  simp [hheader]

/-- Columns of the backup that no row has. -/
def PlainRecord (r : BackupRecord) : Prop := r.data.lookup "_record_id" = none ∧ r.data.lookup "_backup_version" = none

theorem recordId_shownRow {r : BackupRecord} (hr : PlainRecord r) (h : "_record_id" ∈ header) :
    cellOf header (shownRow codec display header r) "_record_id" = r.recordId := by
  rw [cellOf_shownRow h, BackupRecord.rowMap, hr.1]
  exact display.text _

theorem version_shownRow {r : BackupRecord} (hr : PlainRecord r) (h : "_backup_version" ∈ header)
    (hsmall : r.backupVersion < 10 ^ 15) :
    (intOfText (cellOf header (shownRow codec display header r) "_backup_version")).getD 0 = r.backupVersion := by
  have hshown : cellOf header (shownRow codec display header r) "_backup_version" = toString (r.backupVersion : ℤ) := by
    rw [cellOf_shownRow h, BackupRecord.rowMap, hr.2]
    exact display.whole r.backupVersion (by simpa using hsmall)
  rw [hshown, intOfText_toString (by simpa using hsmall), Option.getD_some]

/-! ## The newest version of every row -/

/-- The versions of each row stand in the order of their numbers. -/
def Ascending (records : List BackupRecord) : Prop :=
  ∀ id, ((records.filter fun r => r.recordId == id).map BackupRecord.backupVersion).Pairwise (· ≤ ·)

/-- **What is kept of the rows**: under each record id the newest version. -/
theorem keepLatest_spec (codec : Codec) (display : Display) {records : List BackupRecord}
    (hid : "_record_id" ∈ header) (hversion : "_backup_version" ∈ header)
    (hrecords : ∀ r ∈ records, PlainRecord r ∧ r.recordId ≠ "" ∧ r.backupVersion < 10 ^ 15) (hascending : Ascending records) :
    let latest := (records.map (shownRow codec display header)).foldl (keepLatest header) []
    (latest.map Prod.fst).Nodup ∧ ∀ id, latest.lookup id =
      (records.filter fun r => r.recordId == id).getLast?.map fun r =>
        ((r.backupVersion : ℤ), shownRow codec display header r) := by
  induction records using List.reverseRecOn with
  | nil => exact ⟨List.nodup_nil, fun id => rfl⟩
  | append_singleton records r ih =>
    have hbefore : Ascending records := fun id => by
      have hall := hascending id
      rw [List.filter_append, List.map_append] at hall
      exact (List.pairwise_append.1 hall).1
    obtain ⟨hnodup, hlookup⟩ := ih (fun q hq => hrecords q (List.mem_append_left _ hq)) hbefore
    obtain ⟨hplain, hne, hsmall⟩ := hrecords r (List.mem_append_right _ List.mem_cons_self)
    have hkept : ((records.map (shownRow codec display header)).foldl (keepLatest header) []).lookup r.recordId |>.all
        fun kept => decide (kept.1 ≤ (r.backupVersion : ℤ)) := by
      rw [hlookup]
      cases hlast : (records.filter fun q => q.recordId == r.recordId).getLast? with
      | none => rfl
      | some q =>
        have hall := hascending r.recordId
        rw [List.filter_append, List.map_append] at hall
        have hle := (List.pairwise_append.1 hall).2.2 q.backupVersion
          (List.mem_map_of_mem (List.mem_of_getLast? hlast)) r.backupVersion (by simp)
        simpa using hle
    intro latest
    have hstep : latest = overlay ((records.map (shownRow codec display header)).foldl (keepLatest header) [])
        [(r.recordId, (r.backupVersion : ℤ), shownRow codec display header r)] := by
      simp only [latest, List.map_append, List.map_singleton, List.foldl_append, List.foldl_cons, List.foldl_nil]
      rw [keepLatest]
      simp only [recordId_shownRow hplain hid, version_shownRow hplain hversion hsmall]
      rw [if_neg hne, if_pos hkept]
    rw [hstep]
    refine ⟨nodup_overlay hnodup (List.nodup_singleton _), fun id => ?_⟩
    rw [lookup_overlay, hlookup, List.filter_append, List.getLast?_append]
    by_cases hsame : r.recordId = id
    · subst hsame
      simp
    · have hlookupOne : [(r.recordId, (r.backupVersion : ℤ), shownRow codec display header r)].lookup id = none := by
        rw [lookup_eq_none]
        simpa using Ne.symm hsame
      have hnone : [r].filter (fun q => q.recordId == id) = [] := by simpa using hsame
      rw [hlookupOne, hnone]
      simp

/-! ## The values of a row -/

/-- What the restore writes of a row that a run saw. -/
def TableModel.valuesOf (t : TableModel) (row : StoredRow) (column : String) : Option Value :=
  if column ∈ t.primaryKey then some (row column)
  else if column ∈ t.columns then some (row column).broughtBack
  else none

/-- A row that a run saw over what the other columns hold. -/
def TableModel.broughtBack (t : TableModel) (row rest : StoredRow) : StoredRow := fun column =>
  if column ∈ t.primaryKey then row column else if column ∈ t.columns then (row column).broughtBack else rest column

theorem ne_null_of_holdsKey {type : ColumnType} {v : Value} (h : type.holdsKey v = true) : v ≠ .null := by
  rintro rfl
  cases type <;> cases h

theorem readValues_eq {row : StoredRow} (hrow : t.HoldsRow codec reader row) {r : BackupRecord}
    (hdata : r.data = (t.sourceRow row).data t.toSourceTable) (hheader : ∀ column ∈ t.columns, column ∈ header) :
    readValues reader.loads t header (recordIdOf (t.key row)) (shownRow codec display header r) = t.valuesOf row := by
  have hkeys : t.primaryKey.zip ((recordIdOf (t.key row)).toList.splitOn '|') =
      t.primaryKey.map fun column => (column, (strOfValue (row column)).toList) := by
    have hzip : (t.primaryKey.map id).zip (t.primaryKey.map fun column => (strOfValue (row column)).toList) =
        t.primaryKey.map fun column => (column, (strOfValue (row column)).toList) := List.zip_map'
    rwa [List.map_id, ← splitOn_recordIdOf hrow] at hzip
  have hcell : ∀ column ∈ t.columns, coerceValue reader.loads (t.type column)
      (cellOf header (shownRow codec display header r) column) = (row column).broughtBack := by
    intro column hcolumn
    rw [cellOf_shownRow (hheader column hcolumn), BackupRecord.rowMap, hdata, SourceRow.data, lookup_map_self,
      if_pos hcolumn]
    exact coerceValue_shown display (hrow.columns column hcolumn) (hrow.json column hcolumn)
  funext column
  rw [readValues, hkeys, lookup_map_self, TableModel.valuesOf]
  by_cases hkey : column ∈ t.primaryKey
  · rw [if_pos hkey, if_pos hkey]
    simp only [String.ofList_toList]
    rw [(strOfValue_of_holdsKey (hrow.key column hkey)).2.2]
  · rw [if_neg hkey, if_neg hkey]
    by_cases hcolumn : column ∈ t.columns
    · simp only
      rw [if_pos ⟨hcolumn, hheader column hcolumn⟩, if_pos hcolumn, hcell column hcolumn]
    · simp only
      rw [if_neg fun hboth => hcolumn hboth.1, if_neg hcolumn]

theorem restoredValues_eq {row : StoredRow} (hrow : t.HoldsRow codec reader row) {r : BackupRecord}
    (hdata : r.data = (t.sourceRow row).data t.toSourceTable) (hheader : ∀ column ∈ t.columns, column ∈ header) :
    restoredValues reader.loads t header (recordIdOf (t.key row)) (shownRow codec display header r) =
      some (t.valuesOf row) := by
  have hread : (t.primaryKey.any fun column => decide ((t.valuesOf row column).getD .null = .null)) = false := by
    rw [List.any_eq_false]
    intro column hcolumn
    rw [TableModel.valuesOf, if_pos hcolumn, Option.getD_some, decide_eq_true_eq]
    exact ne_null_of_holdsKey (hrow.key column hcolumn)
  simp only [restoredValues, readValues_eq hrow hdata hheader, hread]
  rfl

theorem isAt_valuesOf {row other : StoredRow} : isAt t (t.valuesOf row) other = true ↔ t.key other = t.key row := by
  rw [isAt, List.all_eq_true, TableModel.key, TableModel.key, List.map_inj_left]
  refine forall₂_congr fun column hcolumn => ?_
  rw [decide_eq_true_eq, TableModel.valuesOf, if_pos hcolumn, Option.some.injEq]
  exact eq_comm

theorem updatedRow_valuesOf {row other : StoredRow} (h : t.key other = t.key row) :
    updatedRow t (t.valuesOf row) other = t.broughtBack row other := by
  funext column
  rw [updatedRow, TableModel.valuesOf, TableModel.broughtBack]
  by_cases hkey : column ∈ t.primaryKey
  · rw [if_pos hkey, if_pos hkey]
    exact List.map_inj_left.1 h column hkey
  · rw [if_neg hkey, if_neg hkey, if_neg hkey]
    split <;> rfl

theorem insertedRow_valuesOf (row : StoredRow) : insertedRow t (t.valuesOf row) = t.broughtBack row t.default := by
  funext column
  rw [insertedRow, TableModel.valuesOf, TableModel.broughtBack]
  split
  · rfl
  · split <;> rfl

theorem key_broughtBack (row rest : StoredRow) : t.key (t.broughtBack row rest) = t.key row :=
  List.map_congr_left fun _ hcolumn => if_pos hcolumn

/-! ## The rows of a restored table -/

/-- The row under a key. -/
def TableModel.rowAt (t : TableModel) (key : List Value) (rows : List StoredRow) : Option StoredRow :=
  rows.find? fun row => t.key row = key

theorem rowAt_cons (key : List Value) (row : StoredRow) (rows : List StoredRow) :
    t.rowAt key (row :: rows) = if t.key row = key then some row else t.rowAt key rows := by
  rw [TableModel.rowAt, List.find?_cons]
  by_cases h : t.key row = key <;> simp [h, TableModel.rowAt]

theorem rowAt_append (key : List Value) (rows : List StoredRow) (row : StoredRow) :
    t.rowAt key (rows ++ [row]) = (t.rowAt key rows).or (if t.key row = key then some row else none) := by
  rw [TableModel.rowAt, TableModel.rowAt, List.find?_append, List.find?_singleton]
  simp

theorem rowAt_map {f : StoredRow → StoredRow} (hf : ∀ row, t.key (f row) = t.key row) (key : List Value)
    (rows : List StoredRow) : t.rowAt key (rows.map f) = (t.rowAt key rows).map f := by
  rw [TableModel.rowAt, TableModel.rowAt, List.find?_map]
  simp only [Function.comp_def, hf]

theorem key_of_rowAt {key : List Value} {rows : List StoredRow} {row : StoredRow} (h : t.rowAt key rows = some row) :
    t.key row = key :=
  of_decide_eq_true (List.find?_some (p := fun row => decide (t.key row = key)) h)

/-- **One row**: only what stands under its key changes. -/
theorem rowAt_restoreRow (s : List StoredRow × RestoredTable) (row : StoredRow) (key : List Value) :
    t.rowAt key (restoreRow t s (t.valuesOf row)).1 =
      if t.key row = key then some (t.broughtBack row ((t.rowAt key s.1).getD t.default)) else t.rowAt key s.1 := by
  rw [restoreRow]
  by_cases hany : s.1.any (isAt t (t.valuesOf row)) = true
  · have hkeyed : ∀ other, t.key (if isAt t (t.valuesOf row) other then updatedRow t (t.valuesOf row) other else other) =
        t.key other := by
      intro other
      split
      · next hat =>
        rw [isAt_valuesOf] at hat
        rw [updatedRow_valuesOf hat, key_broughtBack, hat]
      · rfl
    rw [if_pos hany]
    simp only
    rw [rowAt_map hkeyed]
    by_cases hkey : t.key row = key
    · rw [if_pos hkey]
      obtain ⟨other, hmem, hat⟩ := List.any_eq_true.1 hany
      rw [isAt_valuesOf, hkey] at hat
      obtain ⟨found, hfound⟩ : ∃ found, t.rowAt key s.1 = some found :=
        Option.isSome_iff_exists.1 (List.find?_isSome.2 ⟨other, hmem, decide_eq_true hat⟩)
      have hsame : t.key found = t.key row := (key_of_rowAt hfound).trans hkey.symm
      rw [hfound, Option.map_some, if_pos (isAt_valuesOf.2 hsame), updatedRow_valuesOf hsame, Option.getD_some]
    · rw [if_neg hkey]
      cases hfound : t.rowAt key s.1 with
      | none => rfl
      | some found =>
        have hapart : ¬isAt t (t.valuesOf row) found = true := by
          rw [isAt_valuesOf, key_of_rowAt hfound]
          exact Ne.symm hkey
        rw [Option.map_some, if_neg hapart]
  · rw [if_neg hany]
    simp only
    rw [rowAt_append, insertedRow_valuesOf, key_broughtBack]
    by_cases hkey : t.key row = key
    · have hnone : t.rowAt key s.1 = none := by
        refine List.find?_eq_none.2 fun other hmem hat => hany (List.any_eq_true.2 ⟨other, hmem, ?_⟩)
        rw [isAt_valuesOf, hkey]
        exact of_decide_eq_true hat
      rw [if_pos hkey, if_pos hkey, hnone]
      rfl
    · rw [if_neg hkey, if_neg hkey, Option.or_none]

/-- **All rows**: each brings back what stands under its key. -/
theorem rowAt_foldl {found : List StoredRow} (hkeys : (found.map t.key).Nodup) (s : List StoredRow × RestoredTable)
    (key : List Value) :
    t.rowAt key ((found.map t.valuesOf).foldl (restoreRow t) s).1 =
      match t.rowAt key found with
      | some row => some (t.broughtBack row ((t.rowAt key s.1).getD t.default))
      | none => t.rowAt key s.1 := by
  induction found generalizing s with
  | nil => rfl
  | cons row found ih =>
    rw [List.map_cons, List.nodup_cons] at hkeys
    rw [List.map_cons, List.foldl_cons, ih hkeys.2, rowAt_restoreRow, rowAt_cons]
    by_cases hkey : t.key row = key
    · have hnone : t.rowAt key found = none := by
        refine List.find?_eq_none.2 fun other hmem hat => hkeys.1 ?_
        rw [hkey, ← of_decide_eq_true hat]
        exact List.mem_map_of_mem hmem
      rw [hnone, if_pos hkey, if_pos hkey]
    · rw [if_neg hkey, if_neg hkey]

/-! ## A restored table -/

/-- Every row that was seen is back, as it was seen last, over what is there; the rest of the table is left alone. -/
structure Restored (t : TableModel) (seen : String → Option StoredRow) (before after : List StoredRow) : Prop where
  back : ∀ id row, seen id = some row →
    t.rowAt (t.key row) after = some (t.broughtBack row ((t.rowAt (t.key row) before).getD t.default))
  rest : ∀ key, (∀ id row, seen id = some row → t.key row ≠ key) → t.rowAt key after = t.rowAt key before

/-- The newest version of a row has what was seen of it last. -/
structure SeenLast (codec : Codec) (reader : JsonReader) (t : TableModel) (records : List BackupRecord)
    (seen : String → Option StoredRow) : Prop where
  newest : ∀ id, (records.filter fun r => r.recordId == id).getLast?.map BackupRecord.data =
    (seen id).map fun row => (t.sourceRow row).data t.toSourceTable
  held : ∀ id row, seen id = some row → t.HoldsRow codec reader row ∧ recordIdOf (t.key row) = id

theorem mem_ensureHeader {column : String} {columns : List String} (h : column ∈ metaColumns ∨ column ∈ columns) :
    column ∈ ensureHeader [] columns := by
  by_cases hmeta : column ∈ metaColumns
  · simp [ensureHeader, hmeta]
  · simp [ensureHeader, hmeta, h.resolve_left hmeta]

theorem restoreTable_fst (loads : String → Option Json) (w : Worksheet) (rows : List StoredRow)
    (hid : "_record_id" ∈ w.header) (hversion : "_backup_version" ∈ w.header) :
    (restoreTable loads display t w rows).1 = ((((w.shownRows display).foldl (keepLatest w.header) []).filterMap fun e =>
      restoredValues loads t w.header e.1 e.2.2).foldl (restoreRow t) (rows, ⟨t.name, 0, 0⟩)).1 := by
  obtain ⟨i, hi, _⟩ := position_of_mem hid
  obtain ⟨j, hj, _⟩ := position_of_mem hversion
  rw [restoreTable, if_neg (by simp [hi, hj])]
  cases (w.shownRows display).foldl (keepLatest w.header) [] <;> rfl

theorem restored_of_seen {records : List BackupRecord} {seen : String → Option StoredRow} {w : Worksheet}
    (hheader : w.header = ensureHeader [] t.columns) (hrows : w.rows = records.map (BackupRecord.sheetRow codec w.header))
    (hrecords : ∀ r ∈ records, PlainRecord r ∧ r.recordId ≠ "" ∧ r.backupVersion < 10 ^ 15) (hascending : Ascending records)
    (hseen : SeenLast codec reader t records seen) (rows : List StoredRow) :
    Restored t seen rows (restoreTable reader.loads display t w rows).1 := by
  have hid : "_record_id" ∈ w.header := hheader ▸ mem_ensureHeader (.inl (by decide))
  have hversion : "_backup_version" ∈ w.header := hheader ▸ mem_ensureHeader (.inl (by decide))
  have hcolumns : ∀ column ∈ t.columns, column ∈ w.header := fun column hcolumn =>
    hheader ▸ mem_ensureHeader (.inr hcolumn)
  have hshown : w.shownRows display = records.map (shownRow codec display w.header) := by
    rw [Worksheet.shownRows, hrows, List.map_map]
    rfl
  obtain ⟨hnodup, hlookup⟩ := keepLatest_spec codec display hid hversion hrecords hascending
  rw [restoreTable_fst reader.loads w rows hid hversion, hshown]
  generalize (records.map (shownRow codec display w.header)).foldl (keepLatest w.header) [] = latest at hnodup hlookup ⊢
  have hentry : ∀ e ∈ latest, ∃ row, seen e.1 = some row ∧
      restoredValues reader.loads t w.header e.1 e.2.2 = some (t.valuesOf row) := by
    intro e he
    have hlast := hlookup e.1
    rw [lookup_of_mem hnodup he, eq_comm, Option.map_eq_some_iff] at hlast
    obtain ⟨r, hr, hcells⟩ := hlast
    have hdata := hseen.newest e.1
    rw [hr, Option.map_some, eq_comm, Option.map_eq_some_iff] at hdata
    obtain ⟨row, hrow, hdata⟩ := hdata
    obtain ⟨hheld, hrecordId⟩ := hseen.held e.1 row hrow
    refine ⟨row, hrow, ?_⟩
    rw [← hcells, ← hrecordId]
    exact restoredValues_eq hheld hdata.symm hcolumns
  have hvalues : latest.filterMap (fun e => restoredValues reader.loads t w.header e.1 e.2.2) =
      (latest.filterMap fun e => seen e.1).map t.valuesOf := by
    rw [List.map_filterMap]
    refine List.filterMap_congr fun e he => ?_
    obtain ⟨row, hrow, hread⟩ := hentry e he
    rw [hrow, hread, Option.map_some]
  have hids : (latest.filterMap fun e => seen e.1).map (fun row => recordIdOf (t.key row)) = latest.map Prod.fst := by
    rw [List.map_filterMap, ← List.filterMap_eq_map]
    refine List.filterMap_congr fun e he => ?_
    obtain ⟨row, hrow, _⟩ := hentry e he
    rw [hrow, Option.map_some, (hseen.held e.1 row hrow).2]
    rfl
  have hkeys : ((latest.filterMap fun e => seen e.1).map t.key).Nodup := by
    rw [← Function.comp_def recordIdOf t.key, ← List.map_map] at hids
    exact (hids ▸ hnodup).of_map _
  have hback : ∀ id row, seen id = some row → t.rowAt (t.key row) (latest.filterMap fun e => seen e.1) = some row := by
    intro id row hrow
    have hmem : row ∈ latest.filterMap fun e => seen e.1 := by
      have hlast := hseen.newest id
      rw [hrow, Option.map_some, Option.map_eq_some_iff] at hlast
      obtain ⟨r, hr, _⟩ := hlast
      have hfound := hlookup id
      rw [hr, Option.map_some] at hfound
      exact List.mem_filterMap.2 ⟨_, Entries.mem_of_lookup hfound, hrow⟩
    cases hat : t.rowAt (t.key row) (latest.filterMap fun e => seen e.1) with
    | none => exact absurd (decide_eq_true rfl) (List.find?_eq_none.1 hat row hmem)
    | some other =>
      obtain ⟨e, he, hother⟩ := List.mem_filterMap.1 (List.mem_of_find?_eq_some hat)
      have hsame : e.1 = id := by
        rw [← (hseen.held _ _ hother).2, key_of_rowAt hat, (hseen.held _ _ hrow).2]
      rw [hsame, hrow] at hother
      exact hother.symm
  rw [hvalues]
  constructor
  · intro id row hrow
    rw [rowAt_foldl hkeys, hback id row hrow]
  · intro key hnone
    have hfound : t.rowAt key (latest.filterMap fun e => seen e.1) = none := by
      refine List.find?_eq_none.2 fun row hmem hat => ?_
      obtain ⟨e, _, hrow⟩ := List.mem_filterMap.1 hmem
      exact hnone e.1 row hrow (of_decide_eq_true hat)
    rw [rowAt_foldl hkeys, hfound]

end LcsSystem.Backup
