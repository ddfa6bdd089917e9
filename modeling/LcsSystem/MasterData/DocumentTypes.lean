import LcsSystem.Core.Validation
import LcsSystem.Lib.Table
import LcsSystem.Lib.Transition

/-!
# Document types

`documentTypes` of `src/backend/app/modules/master_data/service.py`: `create_reference`, `update_reference` and
`delete_reference` with the schema, the transform and the check of this collection, and the archive
(`modules/archive/service.py`). A code, a category or a behaviour that is no text is read as its text, and a list of
areas that is none as a list of one.
-/

namespace LcsSystem
open Relational Checks Transition

/-- A row of `document_types`. -/
structure DocumentTypeRow where
  code : String
  name : String
  category : String
  description : Option String
  accountingBehavior : String
  postingRequired : Bool
  availableIn : List String
  status : String
  deleted : Bool
  deriving DecidableEq

structure DocumentTypePayload where
  code : Field String := .absent
  name : Field String := .absent
  category : Field String := .absent
  description : Field String := .absent
  accountingBehavior : Field String := .absent
  postingRequired : Field Bool := .absent
  availableIn : Field (List String) := .absent
  status : Field String := .absent

abbrev DocumentTypes := Table DocumentTypeRow

def documentTypeCategories : List String := ["FINANCE", "OPERATIONS", "CUSTOMS", "SUPPORTING"]

def documentTypeModules : List String :=
  ["financial_documents", "service_order_finance", "posting_rules", "operations_documents", "attachments"]

def canonicalDocumentBehaviors : List String :=
  ["CUSTOMER_INVOICE", "CREDIT_NOTE", "SUPPLIER_BILL", "SUPPLIER_CREDIT_NOTE", "CUSTOMER_RECEIPT", "SUPPLIER_PAYMENT",
    "OTHER_INCOME", "OTHER_EXPENSE", "TRANSFER", "ADJUSTMENT"]

/-! ## Input -/

/-- `str(value).strip().upper()`. -/
def Field.normalized : Field String → Field String
  | .value s => .value (upper (strip s))
  | f => f

/-- `_document_type_input`. -/
def documentTypeInput (p : DocumentTypePayload) : DocumentTypePayload :=
  { p with
    code := p.code.normalized
    category := p.category.normalized
    accountingBehavior := p.accountingBehavior.normalized }

/-- The pattern of a code: `[A-Z][A-Z0-9_]*`. -/
def isTypeCode (s : String) : Bool :=
  match s.toList with
  | [] => false
  | c :: cs => c.isUpper && cs.all fun d => d.isUpper || d.isDigit || d == '_'

def checkCode (f : Field String) : List FieldErrorItem :=
  match TextSpec.check { key := "code", minLength := some 2, maxLength := some 64 } f with
  | [] =>
    if f.text.get?.all isTypeCode then [] else [⟨"code", "INVALID_FORMAT", "Enter a value in the expected format."⟩]
  | items => items

/-- A required field of the schema; an update may leave it out. -/
def requiredItems {α : Type} (isPartial : Bool) (key : String) (items : Field α → List FieldErrorItem) (f : Field α) :
    List FieldErrorItem := if isPartial && !f.sent then [] else checkRequired key items f

/-- The schema of the collection. -/
def DocumentTypePayload.items (isPartial : Bool) (p : DocumentTypePayload) : List FieldErrorItem :=
  requiredItems isPartial "code" checkCode p.code.text ++
  requiredItems isPartial "name" (TextSpec.check { key := "name", minLength := some 1, maxLength := some 255 })
    p.name.text ++
  requiredItems isPartial "category"
    (TextSpec.checkChoice { key := "category", maxLength := some 32 } documentTypeCategories) p.category.text ++
  TextSpec.check { key := "description" } p.description ++
  requiredItems isPartial "accountingBehavior" (TextSpec.check { key := "accountingBehavior", maxLength := some 64 })
    p.accountingBehavior.text ++
  (match p.postingRequired with
    | .malformed => [⟨"postingRequired", "INVALID_TYPE", "Choose Yes or No."⟩]
    | _ => []) ++
  requiredItems isPartial "availableIn" (fun _ => []) p.availableIn ++
  TextSpec.checkChoice { key := "status", maxLength := some 20 } ["ACTIVE", "INACTIVE"] p.status

/-- `_validate_required`: the keys that neither the body nor the stored row fills. -/
def missingFields (stored : Option DocumentTypeRow) (p : DocumentTypePayload) : List String :=
  ([("code", p.code.text.given, stored.map (·.code)), ("name", p.name.text.given, stored.map (·.name)),
    ("category", p.category.text.given, stored.map (·.category)),
    ("accountingBehavior", p.accountingBehavior.text.given, stored.map (·.accountingBehavior)),
    ("availableIn", p.availableIn.given, stored.map fun row => if row.availableIn = [] then "[]" else "[…]")].filter
      fun e => !e.2.1 && e.2.2.all fun s => strip s = "").map Prod.fst

/-- `apply_input`: every field that was sent. -/
def applyInput (row : DocumentTypeRow) (p : DocumentTypePayload) : DocumentTypeRow :=
  { row with
    code := p.code.text.get?.getD row.code
    name := p.name.text.get?.getD row.name
    category := p.category.text.get?.getD row.category
    description := if p.description.sent then p.description.text.get? else row.description
    accountingBehavior := p.accountingBehavior.text.get?.getD row.accountingBehavior
    postingRequired := if p.postingRequired.sent then p.postingRequired.get?.getD false else row.postingRequired
    availableIn := p.availableIn.get?.getD row.availableIn
    status := p.status.text.get?.getD row.status }

/-- `_validate_document_type`: its field errors, of the row after the input was applied. `existing` is what
`session.get` returns for the row's key. -/
def documentTypeErrors (row : DocumentTypeRow) (existing : Option DocumentTypeRow) : List (String × String) :=
  let category := upper row.category
  let behavior := upper row.accountingBehavior
  let code := upper row.code
  (if category ∈ documentTypeCategories then []
    else [("category", "Choose Finance, Operations, Customs or Supporting Document.")]) ++
  (if behavior ∈ canonicalDocumentBehaviors then []
    else [("accountingBehavior", "Choose a supported accounting behavior.")]) ++
  (if code ∈ canonicalDocumentBehaviors ∧ behavior ≠ code then
    [("accountingBehavior", "A canonical document code keeps its accounting behavior.")] else []) ++
  (if existing.any fun stored => upper stored.accountingBehavior ≠ behavior then
    [("accountingBehavior", "The accounting behavior cannot change after creation.")] else []) ++
  (if row.availableIn = [] then [("availableIn", "Choose at least one area where this type is available.")]
    else if row.availableIn.all (· ∈ documentTypeModules) then []
    else [("availableIn", "Choose supported availability areas.")]) ++
  (if row.postingRequired ∧ category ≠ "FINANCE" then [("postingRequired", "Only finance types can require posting.")]
    else [])

/-- `_validate_document_type`. The second check is for a row that has a key. -/
def validateDocumentType (row : DocumentTypeRow) (existing : Option DocumentTypeRow) (p : DocumentTypePayload) :
    Result PUnit := do
  check (documentTypeErrors row existing = [])
    (.invalid "Please correct the document type." (documentTypeErrors row existing))
  check (existing = none ∨ p.code.text.get?.all (· = row.code))
    (.invalid "The document type code cannot be changed after creation." [("code", "Code cannot change.")])

/-! ## Writes -/

/-- The partial unique index on the code, for the row with this key. -/
def codeFree (types : DocumentTypes) (id : ℕ) (code : String) : Bool :=
  types.rows.all fun r => r.1 == id || r.2.deleted || r.2.code != code

def blankColumn : Error := .invalid "A required field was left empty." []

def codeInUse : Error := .invalid "This code is already in use." [("code", "This code is already in use.")]

def newDocumentType : DocumentTypeRow := ⟨"", "", "", none, "", false, [], "ACTIVE", false⟩

/-- What the database refuses at the flush: a blank status, and a code of another active row. -/
def flushRow (types : DocumentTypes) (id : ℕ) (row : DocumentTypeRow) (p : DocumentTypePayload) : Result PUnit := do
  check (p.status.sent = false ∨ p.status.text.given = true) blankColumn
  check (row.deleted = true ∨ codeFree types id row.code = true) codeInUse

/-- `create_reference`. -/
def createDocumentType (types : DocumentTypes) (body : DocumentTypePayload) : Result DocumentTypes := do
  let p := documentTypeInput body
  RecordSchema.validate (p.items false)
  check (missingFields none p = [])
    (.invalid "Please complete the required fields." ((missingFields none p).map (·, "This field is required.")))
  let row := applyInput newDocumentType p
  validateDocumentType row none p
  flushRow types types.nextId row p
  return types.insert row

/-- `update_reference`. The session gives back the row that is being edited, so the stored row of the check is the row
after the input was applied. -/
def updateDocumentType (types : DocumentTypes) (id : ℕ) (body : DocumentTypePayload) : Result DocumentTypes := do
  let stored ← require ((types.get? id).filter fun row => !row.deleted) (.notFound "Record not found.")
  let p := documentTypeInput body
  RecordSchema.validate (p.items true)
  check (missingFields (some stored) p = []) (.invalid "Please complete the required fields."
    ((missingFields (some stored) p).map (·, "This field is required.")))
  let row := applyInput stored p
  validateDocumentType row (some row) p
  flushRow types id row p
  return types.modify id fun _ => row

def setDeleted (types : DocumentTypes) (id : ℕ) (deleted : Bool) : DocumentTypes :=
  types.modify id fun row => { row with deleted := deleted }

/-- `archive_record` of the rows in turn, each with its own commit; a row that is archived already ends the request. -/
def archiveRows (types : DocumentTypes) : List ℕ → DocumentTypes
  | [] => types
  | id :: ids => if (types.get? id).any fun row => !row.deleted then archiveRows (setDeleted types id true) ids else types

/-- `delete_reference`. -/
def deleteDocumentTypes (types : DocumentTypes) (ids : List ℕ) : Result DocumentTypes := do
  let rows := types.rows.filter fun r => r.1 ∈ ids
  check (rows.all fun r => upper (strip r.2.status) ≠ "ACTIVE")
    (.conflict "REFERENCE_ACTIVE" "Active records cannot be deleted. Deactivate the record first." [])
  check (rows.all fun r => r.2.code ∉ canonicalDocumentBehaviors)
    (.conflict "SYSTEM_DOCUMENT_TYPE" "Canonical document types cannot be deleted. Deactivate one instead." [])
  return archiveRows types (rows.map Prod.fst)

/-- `restore_record`. -/
def restoreDocumentType (types : DocumentTypes) (id : ℕ) : Result DocumentTypes := do
  let row ← require (types.get? id) (.notFound "Archived record not found.")
  check (row.deleted = true) (.conflict "ARCHIVE_NOT_ACTIVE" "The record is no longer archived." [])
  check (codeFree types id row.code = true)
    (.conflict "RESTORE_CONFLICT" "An active record already uses the same unique value." [])
  return setDeleted types id false

inductive DocumentTypeAction
  | create (body : DocumentTypePayload)
  | update (id : ℕ) (body : DocumentTypePayload)
  /-- `_apply_reference` of a status change. -/
  | changeStatus (id : ℕ) (target : String)
  | delete (ids : List ℕ)
  | restore (id : ℕ)

namespace DocumentTypeAction

def perform (types : DocumentTypes) : DocumentTypeAction → Result DocumentTypes
  | create body => createDocumentType types body
  | update id body => updateDocumentType types id body
  | changeStatus id target => updateDocumentType types id { status := .value target }
  | delete ids => deleteDocumentTypes types ids
  | restore id => restoreDocumentType types id

def step (types : DocumentTypes) (a : DocumentTypeAction) : DocumentTypes := orKeep types (a.perform types)

end DocumentTypeAction

/-! ## The seeded types -/

def financeModules : List String := ["financial_documents", "service_order_finance", "posting_rules"]

/-- A canonical type of `alembic/versions/f0b1c2d3e4f5_document_types.py`. -/
def seededType (code name : String) (modules : List String) : DocumentTypeRow :=
  ⟨code, name, "FINANCE", none, code, true, modules, "ACTIVE", false⟩

def seededTypes : DocumentTypes :=
  [seededType "CUSTOMER_INVOICE" "Customer Invoice" financeModules,
    seededType "CREDIT_NOTE" "Customer Credit Note" financeModules,
    seededType "SUPPLIER_BILL" "Supplier Bill" financeModules,
    seededType "SUPPLIER_CREDIT_NOTE" "Supplier Credit Note" financeModules,
    seededType "CUSTOMER_RECEIPT" "Customer Receipt" financeModules,
    seededType "SUPPLIER_PAYMENT" "Supplier Payment" financeModules,
    seededType "OTHER_INCOME" "Other Income" financeModules,
    seededType "OTHER_EXPENSE" "Other Expense" financeModules,
    seededType "TRANSFER" "Transfer" ["financial_documents", "posting_rules"],
    seededType "ADJUSTMENT" "Adjustment" ["financial_documents", "posting_rules"]].foldl Table.insert .empty

end LcsSystem
