import LcsSystem.ExcelIo.Modules

/-!
# Exported workbooks and the import

`_export_safe`, `_import_unescape`, `_display`, `_export_table` and `export_rows` (`src/backend/app/modules/excel_io/service.py`
640-672, 737-824), `_parse_sheets` (131-187). An export is read back as openpyxl saved it: a parameter `reload` says what
becomes of the cells of a sheet, the titles of the sheets stay.

| here               | there                                                                          |
|--------------------|--------------------------------------------------------------------------------|
| `exportRows`       | the sheet `Data`, the only one that `export_rows` makes                          |
| `parseSheets`      | `_parse_sheets`; an exception that is no `ValidationFailed` as `parse_workbook` reports it |

An export has no sheet `Instructions`, and an import without one is refused, so no export can be imported
(`export_never_reimports`). The quoting of single cells is undone except where a text begins with a quote and goes on
like a formula.
-/

namespace LcsSystem.ExcelIo

/-! ## Quoting -/

def formulaPrefixes : List Char := ['=', '+', '-', '@']

/-- `ILLEGAL_CHARACTERS_RE`. -/
def isIllegal (c : Char) : Bool :=
  let n := c.toNat
  n ≤ 8 || (11 ≤ n && n ≤ 12) || (14 ≤ n && n ≤ 31)

/-- `value.lstrip().startswith(_FORMULA_PREFIXES)`. -/
def looksLikeFormula (s : List Char) : Bool :=
  match s.dropWhile isSpace with
  | c :: _ => formulaPrefixes.contains c
  | [] => false

def exportSafe (s : List Char) : List Char :=
  let value := s.filter fun c => !isIllegal c
  if looksLikeFormula value then '\'' :: value else value

def importUnescape : List Char → List Char
  | '\'' :: rest => if looksLikeFormula rest then rest else '\'' :: rest
  | s => s

def CellValue.unescaped : CellValue → CellValue
  | .text s => .text (String.ofList (importUnescape s.toList))
  | value => value

/-! ## The export -/

/-- `_display` and then `_export_safe`. -/
def exportedCell (readings : Readings) : Option Value → CellValue
  | none => .none
  | some (.decimal q) => .other (readings.showFloat q)
  | some (.bool b) => .text (if b then "TRUE" else "FALSE")
  | some (.list items) => .text (String.ofList (exportSafe (String.intercalate ", " items).toList))
  | some (.int n) => .other (toString n)
  | some (.text s) => .text (String.ofList (exportSafe s.toList))

structure Cell where
  value : CellValue
  isFormula : Bool := false
  deriving DecidableEq

abbrev Sheet := List (List Cell)

/-- The sheets of a workbook, by title. -/
abbrev Workbook := List (String × Sheet)

/-- What `Spec.fields` reads of a record, by API key. -/
abbrev Record := String → Option Value

def exportHeaders (module : ImportModule) : List String :=
  let headers := module.columns.map ColumnSpec.key
  if headers.contains "status" then headers else headers ++ ["status"]

/-- `_export_table`. -/
def exportTable (readings : Readings) (module : ImportModule) (records : List Record) : List (List CellValue) :=
  records.map fun record => (exportHeaders module).map fun header => exportedCell readings (record header)

/-- `export_rows` with the format `xlsx`. -/
def exportRows (readings : Readings) (module : ImportModule) (records : List Record) : Workbook :=
  [("Data", ((exportHeaders module).map CellValue.text :: exportTable readings module records).map fun row =>
    row.map fun value => { value := value })]

/-! ## The import -/

def maxImportRows : ℕ := 2000

def notATemplate : Error :=
  .invalid "This file is not one of our import templates (Instructions and Data sheets are required)."
    [("file", "Not a template")]

def unreadable : Error := .invalid "The workbook could not be read." [("file", "Invalid workbook")]

def CellValue.isEmpty : CellValue → Bool
  | .none | .text "" => true
  | _ => false

/-- The cells of a row by column; a row that is shorter than the columns is unreadable. -/
def rowCells (index : ℕ) : List ColumnSpec → List Cell → Result (List (String × CellValue))
  | [], [] => .ok []
  | column :: columns, cell :: cells =>
    if cell.isFormula then
      .error (.validationFailed s!"Row {index}: formulas are not allowed (column {column.key})."
        [("row", toString index), ("column", column.key)] [])
    else (rowCells index columns cells).map fun rest => (column.key, cell.value.unescaped) :: rest
  | _, _ => .error unreadable

/-- The rows below the headers, from the row `index` on; `parsed` counts those that are kept. -/
def parseRows (module : ImportModule) : ℕ → ℕ → List (List Cell) → Result (List ParsedRow)
  | _, _, [] => .ok []
  | index, parsed, row :: rows =>
    if module.columns.length < row.length then
      .error (.invalid s!"Row {index}: the sheet has more columns than the template." [("row", toString index)])
    else if row.all fun cell => cell.value.isEmpty then parseRows module (index + 1) parsed rows
    else if maxImportRows ≤ parsed then
      .error (.invalid s!"A workbook may hold at most {maxImportRows} data rows." [("file", "Too many rows")])
    else
      match rowCells index module.columns row with
      | .error e => .error e
      | .ok values => (parseRows module (index + 1) (parsed + 1) rows).map fun rest => ⟨index, values⟩ :: rest

/-- The cell in column B of the first row. -/
def versionCell (instructions : Sheet) : CellValue :=
  match instructions with
  | (_ :: cell :: _) :: _ => cell.value
  | _ => .none

def outdatedTemplate : Error :=
  .invalid "The template version does not match. Download a fresh template." [("file", "Outdated template")]

/-- `int(stored_version) != module.template_version`. -/
def checkVersion (readings : Readings) (module : ImportModule) (stored : CellValue) : Result Unit :=
  match stored with
  | .none => .error outdatedTemplate
  | .text shown | .other shown =>
    match readings.int? shown with
    | some version => if version = module.templateVersion then .ok () else .error outdatedTemplate
    | none => .error unreadable

def parseSheets (readings : Readings) (module : ImportModule) (workbook : Workbook) : Result (List ParsedRow) :=
  match workbook.lookup "Data", workbook.lookup "Instructions" with
  | some sheet, some instructions =>
    match checkVersion readings module (versionCell instructions) with
    | .error e => .error e
    | .ok _ =>
      match sheet with
      | [] => .error (.invalid "The Data sheet has no header row." [("file", "Empty template")])
      | header :: rows =>
        if header.map Cell.value = module.columns.map fun column => CellValue.text column.key then
          parseRows module 2 0 rows
        else
          .error (.invalid "Column headers must match the template exactly, in order." [("file", "Headers do not match")])
  | _, _ => .error notATemplate

/-! ## The round trip -/

def reloaded (reload : Sheet → Sheet) (workbook : Workbook) : Workbook := workbook.map fun s => (s.1, reload s.2)

/-- The values of the import columns of a record. -/
def importValues (module : ImportModule) (record : Record) : Data :=
  module.columns.filterMap fun column => (record column.key).map fun value => (column.key, value)

/-- The export is read, and its rows give each record's values. -/
def Reimports (readings : Readings) (reload : Sheet → Sheet) (module : ImportModule) (records : List Record) : Prop :=
  ∃ rows, parseSheets readings module (reloaded reload (exportRows readings module records)) = .ok rows ∧
    rows.map (rowData readings module) = records.map fun record => .ok (importValues module record)

/-- No text of the export begins like a formula. -/
def Harmless (readings : Readings) (module : ImportModule) (records : List Record) : Prop :=
  ∀ sheet ∈ exportRows readings module records, ∀ row ∈ sheet.2.drop 1, ∀ cell ∈ row, ∀ s, cell.value = .text s →
    looksLikeFormula s.toList = false

/-- A quote in front of what looks like a formula. -/
def isQuoted : List Char → Bool
  | '\'' :: rest => looksLikeFormula rest
  | _ => false

theorem looksLikeFormula_quote (s : List Char) : looksLikeFormula ('\'' :: s) = false := by
  simp [looksLikeFormula, isSpace, formulaPrefixes]

theorem looksLikeFormula_exportSafe (s : List Char) : looksLikeFormula (exportSafe s) = false := by
  rw [exportSafe]
  split
  · exact looksLikeFormula_quote _
  · next h => simpa using h

theorem importUnescape_of_not_quoted {s : List Char} (h : isQuoted s = false) : importUnescape s = s := by
  unfold importUnescape
  split
  · next rest =>
    rw [isQuoted] at h
    rw [if_neg (by simp [h])]
  · rfl

theorem importUnescape_of_quoted {s : List Char} (h : isQuoted s = true) : importUnescape s ≠ s := by
  unfold isQuoted at h
  split at h
  · next rest =>
    rw [importUnescape, if_pos h]
    exact fun hsame => absurd (congrArg List.length hsame) (by simp)
  · cases h

/-- A text without illegal characters comes back unless it is a quoted formula already. -/
theorem importUnescape_exportSafe {s : List Char} (hlegal : ∀ c ∈ s, isIllegal c = false) :
    importUnescape (exportSafe s) = s ↔ isQuoted s = false := by
  have hfilter : s.filter (fun c => !isIllegal c) = s := List.filter_eq_self.2 fun c hc => by simp [hlegal c hc]
  rw [exportSafe, hfilter]
  by_cases hformula : looksLikeFormula s = true
  · rw [if_pos hformula, importUnescape, if_pos hformula]
    have hquote : isQuoted s = false := by
      unfold isQuoted
      split
      · rw [looksLikeFormula_quote] at hformula
        cases hformula
      · rfl
    simp [hquote]
  · rw [if_neg hformula]
    constructor
    · intro hsame
      by_contra hquoted
      exact importUnescape_of_quoted (by simpa using hquoted) hsame
    · exact importUnescape_of_not_quoted

/-- The quote of the operator is taken for one of the export. -/
example : importUnescape (exportSafe "'=1".toList) = "=1".toList := by decide

theorem exportedCell_harmless (readings : Readings) (value : Option Value) {s : String}
    (h : exportedCell readings value = .text s) : looksLikeFormula s.toList = false := by
  unfold exportedCell at h
  split at h
  · cases h
  · cases h
  · next b =>
    obtain rfl := CellValue.text.inj h
    cases b <;> decide
  · obtain rfl := CellValue.text.inj h
    rw [String.toList_ofList]
    exact looksLikeFormula_exportSafe _
  · cases h
  · obtain rfl := CellValue.text.inj h
    rw [String.toList_ofList]
    exact looksLikeFormula_exportSafe _

theorem harmless (readings : Readings) (module : ImportModule) (records : List Record) : Harmless readings module records := by
  intro sheet hsheet row hrow cell hcell s hs
  obtain rfl := List.mem_singleton.1 hsheet
  simp only [exportTable, List.map_cons, List.drop_succ_cons, List.drop_zero, List.map_map, List.mem_map] at hrow
  obtain ⟨record, _, rfl⟩ := hrow
  simp only [Function.comp_apply, List.map_map, List.mem_map] at hcell
  obtain ⟨header, _, rfl⟩ := hcell
  exact exportedCell_harmless readings (record header) hs

/-- An export has one sheet. -/
theorem parseSheets_exportRows (readings : Readings) (reload : Sheet → Sheet) (module : ImportModule) (records : List Record) :
    parseSheets readings module (reloaded reload (exportRows readings module records)) = .error notATemplate := by
  have hmissing : (reloaded reload (exportRows readings module records)).lookup "Instructions" = none := by
    simp [reloaded, exportRows]
  rw [parseSheets, hmissing]
  split
  · next h => cases h
  · rfl

/-- **No export can be imported**; its texts are harmless, and all of them but quoted formulas come back from the quoting. -/
theorem export_never_reimports (readings : Readings) (reload : Sheet → Sheet) (module : ImportModule) (records : List Record) :
    ¬Reimports readings reload module records ∧ Harmless readings module records ∧
      ∀ s : List Char, s.any isIllegal = false → (importUnescape (exportSafe s) = s ↔ isQuoted s = false) := by
  refine ⟨?_, harmless readings module records, fun s hs => importUnescape_exportSafe fun c hc => ?_⟩
  · rintro ⟨rows, hrows, _⟩
    rw [parseSheets_exportRows] at hrows
    cases hrows
  · simpa using List.any_eq_false.1 hs c hc

/-! ## The trade directions -/

def tradeDirectionColumns : List ColumnSpec :=
  [⟨"code", .text, false⟩, ⟨"name", .text, true⟩, ⟨"description", .text, true⟩, ⟨"status", .enum, true⟩]

def tradeDirections : ImportModule := ⟨"tradeDirections", 1, ["code"], tradeDirectionColumns, []⟩

/-- Plain digits are all that is read. -/
def plainReadings : Readings :=
  ⟨fun s => s.toInt?, fun s => s.toInt?.map fun n => (n : ℚ), fun q => toString q.num, fun q => toString q.num⟩

/-- One record, exported and uploaded again. -/
theorem export_reimport_fails :
    ¬∀ (readings : Readings) (reload : Sheet → Sheet) (module : ImportModule) (records : List Record),
      Reimports readings reload module records ∧ Harmless readings module records ∧
        ∀ s : List Char, s.any isIllegal = false → importUnescape (exportSafe s) = s := by
  intro h
  obtain ⟨⟨rows, hrows, _⟩, _⟩ := h plainReadings id tradeDirections
    [fun key => if key = "code" then some (.text "IMP") else if key = "name" then some (.text "Import")
      else if key = "status" then some (.text "ACTIVE") else none]
  rw [parseSheets_exportRows] at hrows
  cases hrows

end LcsSystem.ExcelIo
