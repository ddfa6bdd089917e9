import LcsSystem.MasterData.PageKeys
import LcsSystem.Lib.Pages

/-!
# Pages of a reference collection

The pages of `reference_page` over the collections of `SPECS`, where rows that tie under the `ORDER BY` of a page come in
any order.

| here                  | there                                                                  |
|-----------------------|------------------------------------------------------------------------|
| `Collection`          | an entry of `SPECS`, with the constraints of its table                 |
| `unique`              | the active unique indexes                                              |
| `required`            | the columns that are not `NULL`                                        |
| `IsAnswer`            | what a page query may return                                           |

The default order of every collection but the place roles names each live row: `referencePages_partition_iff`. Place roles
come by sort order and name, and only their codes are unique.
-/

namespace LcsSystem
open Pages

structure Collection extends ReferenceSpec where
  unique : List (List String)
  required : List String

/-! ## The collections -/

/-- The columns that every table has. -/
def recordColumns : List String := ["id", "created_at", "updated_at", "deleted_at", "deleted_by_user_id"]

/-- A table with its own columns. -/
def collection (columns search defaultOrder : List String) (unique : List (List String)) (required : List String) :
    Collection where
  columns := recordColumns ++ columns
  search := search
  statusField := "status"
  defaultOrder := defaultOrder
  unique := unique
  required := ["id", "created_at", "updated_at"] ++ required

/-- A code, a name, a description and a status. -/
def codeTable : Collection :=
  collection ["code", "name", "description", "status"] ["code", "name"] [] [["code"]] ["code", "name", "status"]

def businessParties : Collection :=
  collection ["party_code", "legal_name", "display_name", "vat_tin", "contact_person", "phone", "email", "address", "roles",
    "status"] ["party_code", "legal_name", "display_name", "phone", "email"] [] [["party_code"], ["vat_tin"]]
    ["party_code", "legal_name", "roles", "status"]

def placeRoles : Collection :=
  collection ["code", "name", "description", "sort_order", "status"] ["code", "name"] ["sort_order", "name"] [["code"]]
    ["code", "name", "sort_order", "status"]

def partyRoles : Collection :=
  collection ["code", "name", "description", "status"] ["code", "name"] ["name"] [["code"], ["name"]]
    ["code", "name", "status"]

def containerTypes : Collection :=
  collection ["code", "name", "container_size", "container_kind", "iso_code", "length_feet", "width_millimeter",
    "height_millimeter", "max_gross_weight_kg", "description", "status"] ["code", "name"] [] [["code"]]
    ["code", "name", "status"]

def transportAssets : Collection :=
  collection ["asset_code", "transport_type_id", "identity", "identity_type", "owner_party_id", "operator_party_id",
    "asset_name", "capacity_value", "capacity_unit", "description", "status"] ["asset_code", "asset_name", "identity"] []
    [["asset_code"], ["transport_type_id", "identity"]]
    ["asset_code", "transport_type_id", "identity", "identity_type", "status"]

def transportAssetIdentityTypes : Collection :=
  collection ["name", "transport_type_id", "identity_label", "identity_placeholder", "validation_pattern", "status"]
    ["name"] ["name"] [["name"]] ["name", "status"]

def capacityUnits : Collection :=
  collection ["code", "name", "status"] ["code", "name"] ["code"] [["code"]] ["code", "name", "status"]

def currencies : Collection :=
  collection ["code", "name", "symbol", "numeric_code", "decimal_places", "description", "status"]
    ["code", "name", "symbol"] [] [["code"]] ["code", "name", "decimal_places", "status"]

def currencyRates : Collection :=
  collection ["from_currency_code", "to_currency_code", "effective_date", "rate", "status", "source", "description"]
    ["from_currency_code", "to_currency_code", "source"] [] [["from_currency_code", "to_currency_code", "effective_date"]]
    ["from_currency_code", "to_currency_code", "effective_date", "rate", "status"]

def documentTypes : Collection :=
  collection ["code", "name", "category", "description", "accounting_behavior", "posting_required", "available_in", "status",
    "created_by_user_id", "updated_by_user_id"] ["code", "name", "description"] [] [["code"]]
    ["code", "name", "category", "accounting_behavior", "posting_required", "available_in", "status"]

/-- `SPECS`. -/
def referenceSpecs : List (String × Collection) :=
  [("businessParties", businessParties), ("placeRoles", placeRoles), ("partyRoles", partyRoles),
    ("tradeDirections", codeTable), ("containerTypes", containerTypes), ("transportTypes", codeTable),
    ("transportAssets", transportAssets), ("transportAssetIdentityTypes", transportAssetIdentityTypes),
    ("capacityUnits", capacityUnits), ("feeTypes", codeTable), ("currencies", currencies),
    ("currencyRates", currencyRates), ("documentTypes", documentTypes)]

/-- The rows keep the constraints of the table. -/
structure Collection.Holds (c : Collection) (rows : List ReferenceRow) : Prop where
  ids : (rows.map ReferenceRow.id).Nodup
  unique : ∀ columns ∈ c.unique, ∀ a ∈ rows, ∀ b ∈ rows, a.deleted = false → b.deleted = false →
    (∀ column ∈ columns, a.cell column = b.cell column ∧ a.cell column ≠ none) → a = b
  required : ∀ column ∈ c.required, ∀ a ∈ rows, a.cell column ≠ none

/-! ## Page queries -/

/-- The same request for another page, counted from zero. -/
def PageParams.withPage (p : PageParams) (k : ℕ) : PageParams := { p with page := k + 1, page_pos := Nat.succ_pos k }

section
variable (spec : ReferenceSpec) (p : PageParams) (rows : List ReferenceRow)

def matching : List ReferenceRow := rows.filter (ReferenceRow.selected spec p)

/-- The rows of the page and the total, from any ordering that the statement allows. -/
def IsAnswer (answer : List ReferenceRow × ℕ) : Prop :=
  ∃ sorted, Sorting (rowLe (orderBy spec p)) (matching spec p rows) sorted ∧
    answer = ((sorted.drop p.offset).take p.pageSize, (matching spec p rows).length)

/-- The pages hold every matching row once, and each reports how many there are. -/
def PagesCover : Prop :=
  ∀ answers : ℕ → List ReferenceRow × ℕ, (∀ k, IsAnswer spec (p.withPage k) rows (answers k)) →
    (∀ k, (answers k).2 = (matching spec p rows).length) ∧
      ((List.range (pageCount p.pageSize (matching spec p rows).length)).flatMap fun k => (answers k).1).Perm
        (matching spec p rows)

end

section
variable {spec : ReferenceSpec} {p : PageParams} {rows : List ReferenceRow} {c : Collection}

/-- The page that keeps ties in the order of the table is one that the statement allows. -/
theorem isAnswer_referencePage : IsAnswer spec p rows (referencePage spec p rows) :=
  ⟨_, sorting_mergeSort (rowLe_trans _) (rowLe_total _) _, rfl⟩

theorem offset_withPage (p : PageParams) (k : ℕ) : (p.withPage k).offset = k * p.pageSize := by
  simp [PageParams.offset, PageParams.withPage]

theorem pagesCover_iff :
    PagesCover spec p rows ↔ PagesPartition (rowLe (orderBy spec p)) (matching spec p rows) p.pageSize := by
  constructor
  · intro h orderings horderings
    refine (h (fun k => (page p.pageSize k (orderings k), (matching spec p rows).length)) fun k => ?_).2
    refine ⟨orderings k, horderings k, ?_⟩
    rw [offset_withPage]
    rfl
  · intro h answers hanswers
    choose orderings horderings hanswer using hanswers
    have hpages : ∀ k, (answers k).1 = page p.pageSize k (orderings k) := by
      intro k
      rw [hanswer k, offset_withPage]
      rfl
    refine ⟨fun k => by rw [hanswer k]; rfl, ?_⟩
    simp only [hpages]
    exact h orderings horderings

theorem nodup_matching (h : c.Holds rows) : (matching spec p rows).Nodup :=
  (List.Nodup.of_map _ h.ids).filter _

/-! ## Orders that name each row -/

/-- The default order is by id, or it has the columns of a unique index. -/
def Collection.Determined (c : Collection) : Prop :=
  c.defaultOrder = [] ∨ ∃ columns ∈ c.unique, ∀ column ∈ columns, column ∈ c.defaultOrder ∧ column ∈ c.required

instance Collection.decidableDetermined (c : Collection) : Decidable c.Determined :=
  inferInstanceAs (Decidable (_ ∨ ∃ columns ∈ c.unique, ∀ column ∈ columns, _ ∧ _))

/-- Rows that tie have the same cells in every column of the order. -/
theorem cell_eq_of_tie {orders : List (String × Bool)} {a b : ReferenceRow} (hab : rowLe orders a b = true)
    (hba : rowLe orders b a = true) : ∀ o ∈ orders, a.cell o.1 = b.cell o.1 := by
  have hirrefl : ∀ x : Option ColumnValue, cellLt x x = false := by
    rintro (_ | s | n) <;> simp [cellLt]
  have hasymm : ∀ (descending : Bool) (x y : Option ColumnValue), columnLt descending x y = true →
      columnLt descending y x = true → False := by
    intro descending x y hxy hyx
    have := columnLt_trans hxy hyx
    simp [columnLt, hirrefl] at this
  induction orders with
  | nil => simp
  | cons o orders ih =>
    obtain ⟨column, descending⟩ := o
    rw [rowLe_cons] at hab hba
    rcases hab with hab | ⟨heq, hab⟩
    · rcases hba with hba | ⟨heq, -⟩
      · exact (hasymm _ _ _ hab hba).elim
      · rw [heq] at hab
        exact (hasymm _ _ _ hab hab).elim
    · rcases hba with hba | ⟨-, hba⟩
      · rw [heq] at hba
        exact (hasymm _ _ _ hba hba).elim
      · intro o ho
        rcases List.mem_cons.1 ho with rfl | ho
        · exact heq
        · exact ih hab hba o ho

theorem eq_of_tie (hdetermined : c.Determined) (h : c.Holds rows) {a b : ReferenceRow}
    (ha : a ∈ matching c.toReferenceSpec p rows) (hb : b ∈ matching c.toReferenceSpec p rows)
    (hab : rowLe (orderBy c.toReferenceSpec p) a b = true) (hba : rowLe (orderBy c.toReferenceSpec p) b a = true) :
    a = b := by
  have hcells := cell_eq_of_tie hab hba
  have hlive : ∀ row ∈ matching c.toReferenceSpec p rows, row ∈ rows ∧ row.deleted = false := by
    intro row hrow
    obtain ⟨hmem, hselected⟩ := List.mem_filter.1 hrow
    simp only [ReferenceRow.selected, Bool.and_eq_true, Bool.not_eq_true'] at hselected
    exact ⟨hmem, hselected.1.1⟩
  have hdefaults : ∀ o ∈ if c.defaultOrder = [] then [("id", true)] else c.defaultOrder.map fun column => (column, false),
      o ∈ orderBy c.toReferenceSpec p := by
    intro o ho
    rw [orderBy]
    split
    · exact List.mem_cons_of_mem _ ho
    · exact ho
  obtain ⟨ha, haLive⟩ := hlive a ha
  obtain ⟨hb, hbLive⟩ := hlive b hb
  rcases hdetermined with hnil | ⟨columns, hcolumns, hsub⟩
  · have hid := hcells ("id", true) (hdefaults _ (by rw [if_pos hnil]; exact List.mem_singleton_self _))
    simp only [ReferenceRow.cell, if_true, Option.some.injEq, ColumnValue.number.injEq, Nat.cast_inj] at hid
    exact List.inj_on_of_nodup_map h.ids ha hb hid
  · refine h.unique columns hcolumns a ha b hb haLive hbLive fun column hcolumn => ?_
    obtain ⟨hdefault, hrequired⟩ := hsub column hcolumn
    refine ⟨hcells (column, false) (hdefaults _ ?_), h.required column hrequired a ha⟩
    rw [if_neg (List.ne_nil_of_mem hdefault)]
    exact List.mem_map_of_mem hdefault

/-- Every collection but the place roles. -/
theorem determined_of_ne : ∀ e ∈ referenceSpecs, e.1 ≠ "placeRoles" → e.2.Determined := by decide +kernel

end

/-- **The pages of a collection hold every matching row once** exactly where the rows that tie stand on one page, and so
they do in every collection but the place roles. -/
theorem referencePages_partition_iff : ∀ e ∈ referenceSpecs, ∀ rows : List ReferenceRow, e.2.Holds rows →
    ∀ p : PageParams, (PagesCover e.2.toReferenceSpec p rows ↔
      TiesOnOnePage (rowLe (orderBy e.2.toReferenceSpec p)) (matching e.2.toReferenceSpec p rows) p.pageSize) ∧
      (e.1 ≠ "placeRoles" → PagesCover e.2.toReferenceSpec p rows) := by
  intro e he rows hrows p
  have hiff : PagesCover e.2.toReferenceSpec p rows ↔
      TiesOnOnePage (rowLe (orderBy e.2.toReferenceSpec p)) (matching e.2.toReferenceSpec p rows) p.pageSize :=
    pagesCover_iff.trans (pagesPartition_iff (rowLe_trans _) (rowLe_total _) p.pageSize_pos (nodup_matching hrows))
  refine ⟨hiff, fun hne => hiff.2 ?_⟩
  refine ties_of_antisymm (rowLe_trans _) (rowLe_total _) (nodup_matching hrows) fun a ha b hb hab hba => ?_
  exact eq_of_tie (determined_of_ne e he hne) hrows ha hb hab hba

/-- A live row with this code. -/
def customsRow (id : ℕ) (code : String) : ReferenceRow where
  id := id
  deleted := false
  values column := [("code", .text code), ("name", .text "Customs"), ("sort_order", .number 0), ("status", .text "ACTIVE"),
    ("created_at", .number 0), ("updated_at", .number 0)].lookup column

def customsRows : List ReferenceRow := [customsRow 1 "CUSTOMS_A", customsRow 2 "CUSTOMS_B"]

/-- One row a page, in the default order. -/
def oneByOne : PageParams := ⟨1, 1, none, none, none, .desc, none, none, Nat.zero_lt_one, Nat.zero_lt_one⟩

/-- Two rows with different codes. -/
theorem customsRows_hold {c : Collection} (hunique : c.unique = [["code"]])
    (hrequired : ∀ column ∈ c.required, ∀ a ∈ customsRows, a.cell column ≠ none) : c.Holds customsRows := by
  refine ⟨by decide, ?_, hrequired⟩
  intro columns hcolumns a ha b hb _ _ hcells
  rw [hunique, List.mem_singleton] at hcolumns
  subst hcolumns
  obtain ⟨hcode, -⟩ := hcells "code" (List.mem_singleton_self _)
  simp only [customsRows, List.mem_cons, List.not_mem_nil, or_false] at ha hb
  rcases ha with rfl | rfl <;> rcases hb with rfl | rfl
  · rfl
  · exact absurd hcode (by decide)
  · exact absurd hcode (by decide)
  · rfl

/-- Capacity units come by their codes. -/
theorem referencePages_partition_units : PagesCover capacityUnits.toReferenceSpec oneByOne customsRows :=
  (referencePages_partition_iff ("capacityUnits", capacityUnits) (by simp [referenceSpecs]) customsRows
    (customsRows_hold rfl (by decide)) oneByOne).2 (by decide)

/-- Two place roles of one name and one sort order, read one by one. -/
theorem placeRoles_read_twice :
    placeRoles.Holds customsRows ∧ ¬PagesCover placeRoles.toReferenceSpec oneByOne customsRows := by
  have hholds : placeRoles.Holds customsRows := customsRows_hold rfl (by decide)
  refine ⟨hholds, fun hcover => ?_⟩
  have hties := ties_of_partition (rowLe_trans _) (rowLe_total _) oneByOne.pageSize_pos (nodup_matching hholds)
    (pagesCover_iff.1 hcover)
  have hrow : customsRow 1 "CUSTOMS_A" ∈ matching placeRoles.toReferenceSpec oneByOne customsRows :=
    List.mem_filter.2 ⟨List.mem_cons_self, by decide +kernel⟩
  exact absurd (hties _ hrow) (by decide +kernel)

end LcsSystem
