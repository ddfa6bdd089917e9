import LcsSystem.Core.Validation

/-!
# Import modules and the cells of a row

`ColumnSpec` and `ImportModule` of `src/backend/app/modules/excel_io/registry.py:31-64`, `_coerce` and `_row_data` of
`src/backend/app/modules/excel_io/service.py:190-235`.

| here         | there                                                                                   |
|--------------|-----------------------------------------------------------------------------------------|
| `CellValue`  | the value of a cell as openpyxl hands it on; what is no text enters by its `str`          |
| `Value`      | a typed value, `None` is no entry                                                         |
| `Readings`   | `int(…)`, `Decimal(…)`, `str` of a `Decimal` and of a `float`                             |
-/

namespace LcsSystem.ExcelIo

inductive Kind
  | text
  | number
  | integer
  | date
  | boolean
  | enum
  | reference
  deriving DecidableEq

structure ColumnSpec where
  key : String
  kind : Kind
  updatable : Bool := true
  deriving DecidableEq

structure ImportModule where
  key : String
  templateVersion : ℕ
  matchKey : List String
  columns : List ColumnSpec
  fixedKeys : List String := []
  deriving DecidableEq

def ImportModule.mayUpdate (module : ImportModule) (key : String) : Bool :=
  !module.fixedKeys.contains key && module.columns.any fun column => column.key == key && column.updatable

inductive CellValue
  | none
  | text (s : String)
  | other (shown : String)
  deriving DecidableEq

inductive Value
  | text (s : String)
  | bool (b : Bool)
  | int (n : ℤ)
  | decimal (q : ℚ)
  | list (items : List String)
  deriving DecidableEq

abbrev Data := List (String × Value)

structure Readings where
  int? : String → Option ℤ
  decimal? : String → Option ℚ
  showDecimal : ℚ → String
  showFloat : ℚ → String

/-- `str(value or "")`. -/
def Value.shown (readings : Readings) : Value → String
  | .text s => s
  | .bool b => if b then "True" else ""
  | .int n => if n = 0 then "" else toString n
  | .decimal q => if q = 0 then "" else readings.showDecimal q
  | .list items => if items = [] then "" else "[" ++ String.intercalate ", " (items.map fun item => s!"'{item}'") ++ "]"

/-- `str.strip(" /")`. -/
def stripSlashes (s : String) : String :=
  let isSlash (c : Char) : Bool := c == ' ' || c == '/'
  String.ofList ((s.toList.dropWhile isSlash).rdropWhile isSlash)

/-- `ImportModule.identifier`. -/
def ImportModule.identifier (readings : Readings) (module : ImportModule) (data : Data) : String :=
  stripSlashes (String.intercalate " / " (module.matchKey.map fun key => ((data.lookup key).map (Value.shown readings)).getD ""))

/-! ## One row -/

/-- `_coerce`: no value for an empty cell, or an error on the field. -/
def coerce (readings : Readings) (column : ColumnSpec) (raw : CellValue) : Except (String × String) (Option Value) :=
  match raw with
  | .none => .ok none
  | .text "" => .ok none
  | .text s | .other s =>
    let text := strip s
    match column.kind with
    | .text | .reference | .date => .ok (some (.text text))
    | .enum => .ok (some (.text (upper text)))
    | .boolean =>
      if lower text ∈ ["true", "1", "yes"] then .ok (some (.bool true))
      else if lower text ∈ ["false", "0", "no"] then .ok (some (.bool false))
      else .error (column.key, "Enter TRUE or FALSE.")
    | .integer =>
      match readings.int? text with
      | some n => .ok (some (.int n))
      | none => .error (column.key, "Enter a whole number.")
    | .number =>
      match readings.decimal? text with
      | some q => .ok (some (.decimal q))
      | none => .error (column.key, "Enter a number.")

structure ParsedRow where
  excelRow : ℕ
  values : List (String × CellValue)
  deriving DecidableEq

def ParsedRow.cell (row : ParsedRow) (key : String) : CellValue := (row.values.lookup key).getD .none

/-- The columns of a row that cannot be read. -/
def rowErrors (readings : Readings) (module : ImportModule) (row : ParsedRow) : List (String × String) :=
  module.columns.filterMap fun column =>
    match coerce readings column (row.cell column.key) with
    | .error e => some e
    | .ok _ => none

/-- `_row_data`. -/
def rowData (readings : Readings) (module : ImportModule) (row : ParsedRow) : Result Data :=
  if rowErrors readings module row = [] then
    .ok (module.columns.filterMap fun column =>
      match coerce readings column (row.cell column.key) with
      | .ok (some value) => some (column.key, value)
      | _ => none)
  else .error (.invalid s!"Row {row.excelRow}: invalid value." (rowErrors readings module row))

end LcsSystem.ExcelIo
