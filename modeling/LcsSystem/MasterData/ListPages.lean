import LcsSystem.Core.Cache
import LcsSystem.Lib.Json

/-!
# Pages of master data and their cache keys

`list_cache_parts` and `list_reference` (`src/backend/app/modules/master_data/service.py:1255-1299`) over
`reference_page` (`repository.py:18-42`) and `core/pagination.py:32-120`.

| here | there |
|---|---|
| `ListQuery`, `pageParams` | `page_params` and the query parameters it reads |
| `ReferenceSpec` | what a list uses of the `Spec` of a collection and of its table |
| `ReferenceRow.cell` | a column of a row, `none` for `NULL` |
| `ReferenceRow.selected`, `orderBy` | the `WHERE` and the `ORDER BY` of the statement |
| `ReferenceDb.render` | `serialize` and the creator of a row, in that database |

Texts compare by code point, `ILIKE` ignores the case of ASCII letters, and rows that an `ORDER BY` cannot tell apart
come in the order of the table.
-/

namespace LcsSystem

/-! ## Requests -/

inductive SortOrder | asc | desc
  deriving DecidableEq, Repr

def SortOrder.text : SortOrder → String
  | .asc => "asc"
  | .desc => "desc"

/-- The query parameters as the client sends them. -/
structure ListQuery where
  page : ℤ := 1
  pageSize : ℤ := 50
  q : Option String := none
  status : Option String := none
  sortBy : Option String := none
  sortOrder : String := "desc"
  fromDate : Option String := none
  toDate : Option String := none
  sortKey : Option String := none
  sortDir : Option String := none
  dateFrom : Option String := none
  dateTo : Option String := none

structure PageParams where
  page : ℕ
  pageSize : ℕ
  q : Option String
  status : Option String
  sortBy : Option String
  sortOrder : SortOrder
  fromDate : Option String
  toDate : Option String
  page_pos : 1 ≤ page
  pageSize_pos : 1 ≤ pageSize

namespace PageParams

def offset (p : PageParams) : ℕ := (p.page - 1) * p.pageSize

end PageParams

/-- `a or b`. -/
def orText (a b : Option String) : Option String := if a.getD "" = "" then b else a

def withinLength (n : ℕ) (text : Option String) : Bool := text.all fun s => s.length ≤ n

/-- `page_params`: nothing when a parameter breaks its bound. -/
def pageParams (r : ListQuery) : Option PageParams :=
  if h : (1 ≤ r.page ∧ 1 ≤ r.pageSize ∧ r.pageSize ≤ 200) ∧
      withinLength 200 r.q ∧ withinLength 32 r.status ∧ withinLength 64 r.sortBy ∧ r.sortOrder.length ≤ 8 ∧
      withinLength 32 r.fromDate ∧ withinLength 32 r.toDate ∧ withinLength 64 r.sortKey ∧ withinLength 8 r.sortDir ∧
      withinLength 32 r.dateFrom ∧ withinLength 32 r.dateTo then
    let dir := if r.sortBy.getD "" = "" then (orText r.sortDir (some r.sortOrder)).getD "" else r.sortOrder
    some {
      page := r.page.toNat
      pageSize := r.pageSize.toNat
      q := r.q
      status := r.status
      sortBy := orText r.sortBy r.sortKey
      sortOrder := if lower dir = "asc" then .asc else .desc
      fromDate := orText r.fromDate r.dateFrom
      toDate := orText r.toDate r.dateTo
      page_pos := by omega
      pageSize_pos := by omega }
  else none

/-- `list_cache_parts`. -/
def listCacheParts (collection : String) (p : PageParams) : List String :=
  ["reference", collection, toString p.page, toString p.pageSize, strip (p.q.getD ""),
    upper (strip (p.status.getD "")), p.sortBy.getD "", p.sortOrder.text, p.fromDate.getD "", p.toDate.getD ""]

/-! ## Rows -/

inductive ColumnValue
  | text (s : String)
  | number (n : ℤ)
  deriving DecidableEq

structure ReferenceRow where
  id : ℕ
  deleted : Bool
  values : String → Option ColumnValue

structure ReferenceSpec where
  columns : List String
  search : List String
  statusField : String
  defaultOrder : List String

namespace ReferenceRow

def cell (row : ReferenceRow) (column : String) : Option ColumnValue :=
  if column = "id" then some (.number row.id) else row.values column

/-- `LIKE`: `%` is any text, `_` any character and a backslash takes the next one literally. -/
def like : List Char → List Char → Bool
  | [], text => text.isEmpty
  | '%' :: pattern, text => text.tails.any (like pattern)
  | '_' :: pattern, _ :: text => like pattern text
  | '\\' :: c :: pattern, d :: text => c == d && like pattern text
  | c :: pattern, d :: text => c == d && like pattern text
  | _ :: _, [] => false

def ilike (pattern text : String) : Bool := like (lower pattern).toList (lower text).toList

def searched (spec : ReferenceSpec) (q : String) (row : ReferenceRow) : Bool :=
  q = "" || spec.search.isEmpty || spec.search.any fun column =>
    match row.cell column with
    | some (.text s) => ilike ("%" ++ q ++ "%") s
    | _ => false

/-- The rows of `reference_page`. -/
def selected (spec : ReferenceSpec) (p : PageParams) (row : ReferenceRow) : Bool :=
  !row.deleted && row.searched spec (p.q.getD "") &&
    (p.status.getD "" = "" || row.cell spec.statusField = some (.text (p.status.getD "")))

end ReferenceRow

/-! ## Order -/

/-- `re.sub(r"(?<!^)(?=[A-Z])", "_", name).lower()`. -/
def snakeCase (name : String) : String :=
  match name.toList with
  | [] => ""
  | c :: cs => lower (String.ofList (c :: cs.flatMap fun d => if d.isUpper then ['_', d] else [d]))

/-- `resolve_sort_column` without aliases. -/
def resolveSortColumn (spec : ReferenceSpec) (sortBy : Option String) : Option String :=
  let key := strip (sortBy.getD "")
  if key = "" then none else [key, snakeCase key, lower key].find? (· ∈ spec.columns)

/-- `list_sort_orders`: columns, with `true` for a descending one. -/
def orderBy (spec : ReferenceSpec) (p : PageParams) : List (String × Bool) :=
  let defaults := if spec.defaultOrder = [] then [("id", true)] else spec.defaultOrder.map fun column => (column, false)
  match resolveSortColumn spec p.sortBy with
  | some column => (column, p.sortOrder = .desc) :: defaults
  | none => defaults

/-- Before it in an ascending column: `NULL` comes last. -/
def cellLt : Option ColumnValue → Option ColumnValue → Bool
  | some (.text s), some (.text t) => s < t
  | some (.number m), some (.number n) => m < n
  | some (.text _), some (.number _) => true
  | some (.number _), some (.text _) => false
  | some _, none => true
  | none, _ => false

/-- The row may stand before the other one. -/
def rowLe : List (String × Bool) → ReferenceRow → ReferenceRow → Bool
  | [], _, _ => true
  | (column, descending) :: orders, a, b =>
    let x := a.cell column
    let y := b.cell column
    (if descending then cellLt y x else cellLt x y) || decide (x = y) && rowLe orders a b

/-! ## Pages -/

structure ReferenceDb where
  rows : List ReferenceRow
  render : ReferenceRow → Json
  nodup : (rows.map ReferenceRow.id).Nodup

structure Page where
  items : List (ℕ × Json)
  page : ℕ
  pageSize : ℕ
  total : ℕ

/-- `reference_page`. -/
def referencePage (spec : ReferenceSpec) (p : PageParams) (rows : List ReferenceRow) : List ReferenceRow × ℕ :=
  let selected := rows.filter (ReferenceRow.selected spec p)
  (((selected.mergeSort (rowLe (orderBy spec p))).drop p.offset).take p.pageSize, selected.length)

/-- `list_reference` without the cache. -/
def listReference (spec : ReferenceSpec) (p : PageParams) (db : ReferenceDb) : Page :=
  let (rows, total) := referencePage spec p db.rows
  ⟨rows.map fun row => (row.id, db.render row), p.page, p.pageSize, total⟩

end LcsSystem
