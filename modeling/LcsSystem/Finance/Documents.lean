import LcsSystem.MasterData.CurrencyRates
import LcsSystem.Finance.Periods
import LcsSystem.Finance.PostingRules

/-!
# Saving financial documents

`save_document` and its helpers (`src/backend/app/modules/finance/service.py:797-1138`), in the
order the service runs them: schema, document type, dates, lines, conversion, header, totals. A
request that fails leaves the database as it was, so a writer returns the new database or an error.

The body is read after alias resolution. Where a body carries a key and an alias of it both, the
service can still see the alias; those are `unitAmount`, `tax`, `debitNoteNo` and `referenceNo`.
References are the ids that `_int_or_none` reads from them. Foreign keys are not modelled.
-/

namespace LcsSystem
open Calendar Relational DecimalArith Checks

/-! ## Payloads -/

structure LinePayload extends TaxInput where
  description : Field String
  feeTypeId : Field ℕ
  feeType : Field String
  quantity : Field ℚ
  unitPrice : Field ℚ
  unitAmount : Field ℚ
  discount : Field ℚ
  unit : Field String
  accountCode : Field String
  accountId : Field String
  serviceOrderId : Field ℕ
  serviceOrderContainerId : Field ℕ

structure DocumentPayload where
  /-- Absent when there is no `id` or it is null; malformed when it is no number. -/
  id : Field ℕ
  documentNo : Field String
  debitNoteNo : Field String
  documentType : Field String
  documentTypeId : Field ℕ
  date : Field Date
  documentDate : Field Date
  postingDate : Field Date
  dueDate : Field Date
  valueDate : Field Date
  currency : Field String
  exchangeRate : Field ℚ
  baseCurrency : Field String
  partyId : Field ℕ
  serviceOrderId : Field ℕ
  referenceNumber : Field String
  referenceNo : Field String
  remark : Field String
  description : Field String
  paymentMethod : Field String
  financialAccountId : Field ℕ
  lines : Field (List LinePayload)

/-- A row `{}`, and a body `{}`. -/
def LinePayload.empty : LinePayload where
  taxRate := .absent
  taxAmount := .absent
  tax := .absent
  description := .absent
  feeTypeId := .absent
  feeType := .absent
  quantity := .absent
  unitPrice := .absent
  unitAmount := .absent
  discount := .absent
  unit := .absent
  accountCode := .absent
  accountId := .absent
  serviceOrderId := .absent
  serviceOrderContainerId := .absent

def DocumentPayload.empty : DocumentPayload where
  id := .absent
  documentNo := .absent
  debitNoteNo := .absent
  documentType := .absent
  documentTypeId := .absent
  date := .absent
  documentDate := .absent
  postingDate := .absent
  dueDate := .absent
  valueDate := .absent
  currency := .absent
  exchangeRate := .absent
  baseCurrency := .absent
  partyId := .absent
  serviceOrderId := .absent
  referenceNumber := .absent
  referenceNo := .absent
  remark := .absent
  description := .absent
  paymentMethod := .absent
  financialAccountId := .absent
  lines := .absent

/-- A line with a quantity and a price, and a document with a type and lines. -/
def LinePayload.priced (quantity unitPrice : ℚ) : LinePayload :=
  { LinePayload.empty with quantity := .value quantity, unitPrice := .value unitPrice }

def DocumentPayload.ofLines (documentType : DocType) (lines : List LinePayload) : DocumentPayload :=
  { DocumentPayload.empty with documentType := .value documentType.code, lines := .value lines }

def checkReference {α : Type} (key : String) : Field α → List FieldErrorItem
  | .malformed => [⟨key, "INVALID_TYPE", "Choose a valid record."⟩]
  | _ => []

def zeroBound : Bound := ⟨0, "0"⟩

/-- `DOCUMENT_LINE_SCHEMA`. -/
def documentLineSchema (line : LinePayload) : List FieldErrorItem :=
  TextSpec.check { key := "description", maxLength := some 1000 } line.description ++
  checkReference "feeTypeId" line.feeTypeId ++
  TextSpec.check { key := "feeType", maxLength := some 255 } line.feeType ++
  DecimalSpec.check { key := "quantity", minimum := some zeroBound, decimalPlaces := some 3 } line.quantity ++
  DecimalSpec.check { key := "unitPrice" } line.unitPrice ++
  DecimalSpec.check { key := "discount", minimum := some zeroBound } line.discount ++
  DecimalSpec.check { key := "taxRate", minimum := some zeroBound, maximum := some ⟨100, "100"⟩ } line.taxRate ++
  DecimalSpec.check { key := "taxAmount", minimum := some zeroBound } line.taxAmount ++
  TextSpec.check { key := "unit", maxLength := some 32 } line.unit ++
  TextSpec.check { key := "accountCode", maxLength := some 32 } line.accountCode ++
  checkReference "accountId" line.accountId ++
  checkReference "serviceOrderId" line.serviceOrderId ++
  checkReference "serviceOrderContainerId" line.serviceOrderContainerId

/-- `DOCUMENT_WRITE_SCHEMA`; no field of it is required. -/
def documentWriteSchema (p : DocumentPayload) : List FieldErrorItem :=
  TextSpec.check { key := "documentNo", maxLength := some 50 } p.documentNo ++
  TextSpec.check { key := "documentType", maxLength := some 32 } p.documentType ++
  checkReference "documentTypeId" p.documentTypeId ++
  checkDate "date" p.date ++
  checkDate "documentDate" p.documentDate ++
  checkDate "postingDate" p.postingDate ++
  checkDate "dueDate" p.dueDate ++
  checkDate "valueDate" p.valueDate ++
  TextSpec.check { key := "currency", minLength := some 3, maxLength := some 3 } p.currency ++
  DecimalSpec.check { key := "exchangeRate", minimum := some zeroBound, decimalPlaces := some 8 } p.exchangeRate ++
  TextSpec.check { key := "baseCurrency", minLength := some 3, maxLength := some 3 } p.baseCurrency ++
  checkReference "partyId" p.partyId ++
  checkReference "serviceOrderId" p.serviceOrderId ++
  TextSpec.check { key := "referenceNumber", maxLength := some 128 } p.referenceNumber ++
  TextSpec.check { key := "remark", maxLength := some 10000 } p.remark ++
  TextSpec.check { key := "description", maxLength := some 10000 } p.description ++
  TextSpec.check { key := "paymentMethod", maxLength := some 64 } p.paymentMethod ++
  checkReference "financialAccountId" p.financialAccountId

/-- `data.get(field)` as the list `validate_line_items` returns. -/
def rowsOf {α : Type} (schema : α → List FieldErrorItem) (rows : Field (List α)) (field : String := "lines") :
    Result (List α) :=
  match rows with
  | .absent | .blank => .ok []
  | .malformed => .error (.invalid "Please correct the document lines." [(field, "Provide a list of rows.")])
  | .value ls => do
    validateLineItems schema ls field
    return ls

/-- `_date(data.get("documentDate") or data.get("date"))`. -/
def DocumentPayload.issuedOn (p : DocumentPayload) : Option Date := p.documentDate.get?.or p.date.get?

/-! ## Document type -/

/-- The chosen type: the master record when one is named, and the code accounting reads. -/
def resolveDocumentType (db : Db) (p : DocumentPayload) : Result (Option ℕ × String) := do
  let given := p.documentType.text.get?
  let documentType := upper (given.getD "CUSTOMER_INVOICE")
  let chosen : Option (ℕ × DocumentTypeRecord) ←
    match p.documentTypeId.get? with
    | some id => do
      let row ← require ((db.documentTypes.get? id).filter DocumentTypeRecord.active)
        (.invalid "Choose an active document type." [("documentTypeId", "Document type is not active.")])
      pure (some (id, row))
    | none => pure <|
      if given.isSome then db.documentTypes.rows.find? fun r => r.2.code == documentType && !r.2.deleted else none
  match chosen with
  | none => return (none, documentType)
  | some (id, row) =>
    check (upper row.category = "FINANCE" ∧ "financial_documents" ∈ row.availableIn) (.invalid
      "Choose a finance document type that is available for financial documents."
      [("documentType", "This type cannot be used on a financial document.")])
    return (some id, upper row.accountingBehavior)

/-! ## Conversion -/

/-- `_document_currency_inputs`: the base currency stores rate 1; otherwise the rate sent, else the
stored one, else the approved one, else the save is refused. -/
def documentCurrencyInputs (db : Db) (exchangeRate : Option ℚ) (documentCurrency : String) (base : CurrencyCode)
    (onDate : Date) (storedRate : Option ℚ) : Result (CurrencyCode × ℚ × CurrencyCode × ℕ) := do
  let currency ← assertCurrencyCode db documentCurrency "currency"
  let base ← assertCurrencyCode db base.code "baseCurrency"
  let precision := precisionOf db currency
  if currency = base then return (currency, 1, base, precision)
  else
    let rate ← match exchangeRate.or storedRate with
      | some rate => pure rate
      | none => do
        let resolved ← resolveDocumentRate db currency base onDate
        require resolved (.invalid
          ("No approved exchange rate is configured for " ++ currency.code ++ " to " ++ base.code ++ ".")
          [("exchangeRate", "Enter the exchange rate, or add one in Master Data -> Currency Rates.")])
    let rate ← documentRate currency base (some rate)
    return (currency, rate, base, precision)

/-- What `_document_currency_inputs` returns: rate 1 in the base currency, else a normalised rate that was
sent, was stored, or is approved. -/
theorem documentCurrencyInputs_spec {db : Db} {sent stored : Option ℚ} {text : String} {base base' : CurrencyCode}
    {onDate : Date} {currency : CurrencyCode} {rate : ℚ} {precision : ℕ}
    (h : documentCurrencyInputs db sent text base onDate stored = .ok (currency, rate, base', precision)) :
    CurrencyCode.ofText? text = some currency ∧ base' = base ∧ precision = precisionOf db currency ∧
      (currency = base ∧ rate = 1 ∨ currency ≠ base ∧ ∃ q, normalizeRate q = .ok rate ∧
        (sent.or stored = some q ∨
          sent.or stored = none ∧ resolveDocumentRate db currency base onDate = .ok (some q))) := by
  simp only [documentCurrencyInputs, assertCurrencyCode, bind_eq_ok, require_eq_ok, check_eq_ok, pure_eq_ok,
    CurrencyCode.ofText?_code] at h
  obtain ⟨_, ⟨c, htext, _, -, rfl⟩, _, ⟨b, hbase, _, -, rfl⟩, h⟩ := h
  cases hbase
  split at h
  · next heq =>
    cases h
    exact ⟨htext, rfl, rfl, .inl ⟨heq, rfl⟩⟩
  · next hne =>
    split at h
    · next q hgiven =>
      simp only [bind_eq_ok, pure_eq_ok, documentRate_of_ne hne] at h
      obtain ⟨_, rfl, _, ⟨_, hsome, hrate⟩, h⟩ := h
      cases hsome
      cases h
      exact ⟨htext, rfl, rfl, .inr ⟨hne, q, hrate, .inl hgiven⟩⟩
    · next hnone =>
      simp only [bind_eq_ok, pure_eq_ok, require_eq_ok, documentRate_of_ne hne] at h
      obtain ⟨_, hresolved, q, rfl, _, ⟨_, hsome, hrate⟩, h⟩ := h
      cases hsome
      cases h
      exact ⟨htext, rfl, rfl, .inr ⟨hne, q, hrate, .inr ⟨hnone, hresolved⟩⟩⟩

/-! ## Lines -/

/-- A line as the loop of `save_document` computes it, before its columns round it. -/
structure LineDraft where
  description : String
  feeTypeId : Option ℕ
  quantity : ℚ
  unitPrice : ℚ
  base : ℚ
  discount : ℚ
  taxRate : ℚ
  taxAmount : ℚ
  serviceOrderId : Option ℕ
  serviceOrderContainerId : Option ℕ
  accountId : Option ℕ

/-- `amount = base - discount + tax_amount`. -/
def LineDraft.amount (l : LineDraft) : ℚ := l.base - l.discount + l.taxAmount

/-- `resolve_reference_id(session, "fee_type", id, value)`. -/
def resolveFeeType (db : Db) (feeTypeId : Option ℕ) (feeType : Option String) : Option ℕ :=
  match feeTypeId with
  | some id => some id
  | none => feeType.bind fun text =>
    match digits? text with
    | some id => some id
    | none => (db.feeTypes.rows.find? fun r => (r.2.name == text || r.2.code == text) && !r.2.deleted).map Prod.fst

/-- `_resolve_account_ref`: an account code, or the id as a legacy client sends it. -/
def resolveAccountRef (db : Db) (reference : String) : Option Account :=
  match accountByCode db reference with
  | some a => some a
  | none => (digits? reference).bind (accountById db)

/-- `_line_account_id`: none when the posting rules are to decide. -/
def lineAccountId (db : Db) (line : LinePayload) : Result (Option ℕ) :=
  match line.accountCode.text.get?.or line.accountId.text.get? with
  | none => .ok none
  | some reference => do
    let account ← require (resolveAccountRef db reference) (.invalid ("Unknown account '" ++ reference ++ "'.")
      [("lines", "Choose an account from the chart of accounts.")])
    let account ← validatePostable (some account) "line" none
    return some account.id

/-- Under `p`, assignment to a key of the error dictionary. -/
def addError (p : Prop) [Decidable p] (key message : String) (errors : List (String × String)) :
    List (String × String) :=
  if p then
    if errors.any fun e => e.1 == key then errors.map fun e => if e.1 = key then (key, message) else e
    else errors ++ [(key, message)]
  else errors

theorem addError_eq_nil {p : Prop} [Decidable p] {key message : String} {errors : List (String × String)} :
    addError p key message errors = [] ↔ errors = [] ∧ ¬p := by
  by_cases hp : p
  · cases errors with
    | nil => simp [addError, hp]
    | cons e es =>
      simp only [addError, hp, if_true]
      split <;> simp
  · simp [addError, hp]

/-- The errors of one line, keyed by cell. -/
def lineErrors (pre : String) (quantity unitPrice base discount : ℚ) (tax : String × ℚ × ℚ) :
    List (String × String) :=
  []
  |> addError (quantity ≤ 0) (pre ++ ".quantity") "Must be greater than zero."
  |> addError (unitPrice < 0) (pre ++ ".unitPrice") "Cannot be negative."
  |> addError (discount < 0 ∨ base < discount) (pre ++ ".discount") "Must be between zero and the line subtotal."
  |> addError (tax.2.1 < 0) (pre ++ ".taxAmount") "Cannot be negative."
  |> addError (tax.2.2 < 0 ∨ 100 < tax.2.2) (pre ++ "." ++ tax.1) "Must be between 0 and 100."

/-- One turn of the loop over the lines. -/
def draftOfLine (db : Db) (index : ℕ) (line : LinePayload) : Result LineDraft := do
  let pre := "lines." ++ toString index
  let unitValue := if line.unitPrice.given then line.unitPrice else line.unitAmount
  let quantity ← parseDecimal line.quantity (pre ++ ".quantity") 1 3
  let unitPrice ← parseDecimal unitValue (pre ++ ".unitPrice") 0 4
  let discount ← parseDecimal line.discount (pre ++ ".discount") 0 4
  let base := mul quantity unitPrice
  let tax ← resolveLineTax line.toTaxInput (base - discount) pre
  let errors := lineErrors pre quantity unitPrice base discount tax
  check (errors = []) (.invalid "Please correct the document lines." errors)
  let accountId ← lineAccountId db line
  return {
    description := line.description.text.get?.getD "Line"
    feeTypeId := resolveFeeType db line.feeTypeId.get? line.feeType.text.get?
    quantity, unitPrice, base, discount
    taxRate := tax.2.2
    taxAmount := tax.2.1
    serviceOrderId := line.serviceOrderId.get?
    serviceOrderContainerId := line.serviceOrderContainerId.get?
    accountId }

def draftLinesFrom (db : Db) : ℕ → List LinePayload → Result (List LineDraft)
  | _, [] => .ok []
  | index, line :: lines => do
    let draft ← draftOfLine db index line
    let drafts ← draftLinesFrom db (index + 1) lines
    return draft :: drafts

/-- The row of a line: every column rounds on its own. -/
def LineDraft.row (lineNo : ℕ) (l : LineDraft) : Result DocumentLine := do
  let quantity ← store 12 3 l.quantity
  let unitPrice ← storeMoney l.unitPrice
  let discountAmount ← storeMoney l.discount
  let taxRate ← store 7 4 l.taxRate
  let taxAmount ← storeMoney l.taxAmount
  let lineAmount ← storeMoney l.amount
  return {
    description := l.description, feeTypeId := l.feeTypeId
    quantity, unitPrice, discountAmount, taxRate, taxAmount, lineAmount
    unitCode := none
    serviceOrderContainerId := l.serviceOrderContainerId
    lineNo
    serviceOrderId := l.serviceOrderId, accountId := l.accountId }

def rowsFrom : ℕ → List LineDraft → Result (List DocumentLine)
  | _, [] => .ok []
  | lineNo, l :: ls => do
    let row ← l.row lineNo
    let rows ← rowsFrom (lineNo + 1) ls
    return row :: rows

/-! ## Totals -/

/-- The document amounts before their columns round them. -/
structure ExactAmounts where
  subtotal : ℚ
  discount : ℚ
  tax : ℚ

namespace ExactAmounts

def total (a : ExactAmounts) : ℚ := a.subtotal - a.discount + a.tax

def ofLines (ls : List LineDraft) : ExactAmounts where
  subtotal := (ls.map LineDraft.base).sum
  discount := (ls.map LineDraft.discount).sum
  tax := (ls.map LineDraft.taxAmount).sum

def toRow (a : ExactAmounts) : Result Amounts := do
  let subtotal ← storeMoney a.subtotal
  let discount ← storeMoney a.discount
  let tax ← storeMoney a.tax
  let total ← storeMoney a.total
  return { subtotal, discount, tax, total }

/-- The base columns: each amount converted on its own. -/
def toBaseRow (a : ExactAmounts) (rate : ℚ) (precision : ℕ) : Result Amounts := do
  let subtotal ← storeMoney (convertToBase a.subtotal rate precision)
  let discount ← storeMoney (convertToBase a.discount rate precision)
  let tax ← storeMoney (convertToBase a.tax rate precision)
  let total ← storeMoney (convertToBase a.total rate precision)
  return { subtotal, discount, tax, total }

end ExactAmounts

/-- Stored amounts, converted: the charge's in an invoice, the document's own when it is posted. -/
def Amounts.toBaseRow (a : Amounts) (rate : ℚ) (precision : ℕ) : Result Amounts := do
  let subtotal ← storeMoney (convertToBase a.subtotal.val rate precision)
  let discount ← storeMoney (convertToBase a.discount.val rate precision)
  let tax ← storeMoney (convertToBase a.tax.val rate precision)
  let total ← storeMoney (convertToBase a.total.val rate precision)
  return { subtotal, discount, tax, total }

/-! ## Header -/

/-- The columns a create and an update both apply, read for the types that carry them. -/
structure DocumentColumns where
  partyId : Option ℕ
  serviceOrderId : Option ℕ
  description : Option String
  referenceNumber : Option String
  postingDate : Option Date
  documentDate : Option Date
  paymentMethodCode : Option String
  financialAccountId : Option ℕ
  valueDate : Option Date
  dueDate : Option Date

/-- `_document_columns`. -/
def documentColumns (p : DocumentPayload) (documentType : DocType) : DocumentColumns where
  partyId := p.partyId.get?
  serviceOrderId := p.serviceOrderId.get?
  description := p.remark.text.get?.or p.description.text.get?
  referenceNumber := p.referenceNumber.text.get?.or p.referenceNo.get?
  postingDate := p.postingDate.get?
  documentDate := p.issuedOn
  paymentMethodCode := if documentType.isPayment then p.paymentMethod.text.get? else none
  financialAccountId := if documentType.isPayment then p.financialAccountId.get? else none
  valueDate := if documentType.isPayment then p.valueDate.get? else none
  dueDate := if documentType.isAllocatable then p.dueDate.get? else none

/-- `uq_financial_documents_no`. -/
def checkDocumentNo (db : Db) (number : String) : Result PUnit :=
  check (∀ d ∈ db.documents.values, d.documentNo ≠ number)
    (.database "duplicate key value violates unique constraint uq_financial_documents_no")

/-- The header of a new document: numbered from the type's sequence unless a number was typed. -/
def newHeader (env : Env) (db : Db) (p : DocumentPayload) (documentType : String) (currency : CurrencyCode)
    (rate : Rate) (base : CurrencyCode) : Result (Table DocumentSequence × Document) := do
  let known ← require (DocType.ofCode? documentType) (.invalid ("Unknown document type '" ++ documentType ++ "'.")
    [("documentType", "Choose one of the configured financial document types.")])
  let typed := (p.documentNo.text.get?.or p.debitNoteNo.get?).filter fun n => strip n != ""
  let (sequences, number) := match typed with
    | some number => (db.sequences, number)
    | none => allocateNumber env db.sequences known.code
  checkDocumentNo db number
  let columns := documentColumns p known
  return (sequences, {
    documentNo := number
    documentType := known
    documentDate := columns.documentDate.getD env.today
    postingDate := columns.postingDate
    status := .draft
    partyId := columns.partyId
    serviceOrderId := columns.serviceOrderId
    currencyCode := currency
    exchangeRate := rate
    baseCurrencyCode := some base
    description := columns.description
    referenceNumber := columns.referenceNumber
    dueDate := columns.dueDate
    paymentMethodCode := columns.paymentMethodCode
    financialAccountId := columns.financialAccountId
    valueDate := columns.valueDate
    amounts := 0
    baseAmounts := 0
    paidAmount := 0
    createdByUserId := env.userId
    postedByUserId := none
    documentTypeId := none
    lines := [] })

/-- Whether the body says anything about the conversion. -/
def DocumentPayload.sendsConversion (p : DocumentPayload) : Bool :=
  p.currency.text.get?.isSome || p.exchangeRate.get?.isSome

/-- The header of a stored draft after an update: a column that was not sent keeps its value, the
currency and the rate are written when one of them was sent, the base currency always. -/
def updatedHeader (p : DocumentPayload) (documentType : String) (d : Document) (currency : CurrencyCode)
    (rate : Rate) (base : CurrencyCode) : Result Document := do
  check (d.status = .draft)
    (.invalidState "Only draft documents can be edited; posted documents require a reversal.")
  check (p.documentType.text.get?.isSome → documentType = d.documentType.code)
    (.invalid "A financial document keeps the type it was created with."
      [("documentType", "This document is a " ++ d.documentType.code ++ ".")])
  let columns := documentColumns p d.documentType
  return { d with
    partyId := columns.partyId.or d.partyId
    serviceOrderId := columns.serviceOrderId.or d.serviceOrderId
    description := columns.description.or d.description
    referenceNumber := columns.referenceNumber.or d.referenceNumber
    postingDate := columns.postingDate.or d.postingDate
    documentDate := columns.documentDate.getD d.documentDate
    paymentMethodCode := columns.paymentMethodCode.or d.paymentMethodCode
    financialAccountId := columns.financialAccountId.or d.financialAccountId
    valueDate := columns.valueDate.or d.valueDate
    dueDate := columns.dueDate.or d.dueDate
    currencyCode := if p.sendsConversion then currency else d.currencyCode
    exchangeRate := if p.sendsConversion then rate else d.exchangeRate
    baseCurrencyCode := some base
    status := .draft }

/-! ## save_document -/

/-- A new entry for a service order, as the order screen sends it. -/
def DocumentPayload.manualOrder (p : DocumentPayload) : Option ℕ :=
  match p.id with
  | .absent => p.serviceOrderId.get?
  | _ => none

def checkManualEntry (db : Db) (p : DocumentPayload) (lines : List LinePayload) : Result PUnit :=
  match p.manualOrder with
  | none => .ok ⟨⟩
  | some orderId => do
    let _ ← require (db.serviceOrders.get? orderId) (.invalid "Choose a valid service order."
      [("serviceOrderId", "Service order not found.")])
    let partyId ← require p.partyId.get? (.invalid "Choose a business party for this entry." [("partyId", "Required.")])
    let _ ← require ((db.parties.get? partyId).filter BusinessParty.active)
      (.invalid "Choose an active business party." [("partyId", "Choose an active business party.")])
    check (lines ≠ []) (.invalid "Add at least one line to the entry." [("lines", "At least one line is required.")])

/-- The stored document an update names. -/
def storedDocument (db : Db) (p : DocumentPayload) : Option (ℕ × Document) :=
  p.id.get?.bind fun id => (db.documents.get? id).map fun d => (id, d)

/-- The currency the body names, else the stored one, else the default. -/
def DocumentPayload.currencyText (db : Db) (p : DocumentPayload) : String :=
  (p.currency.text.get?).getD (match storedDocument db p with
    | some (_, d) => d.currencyCode.code
    | none => db.defaultCurrency.code)

def DocumentPayload.rateDate (env : Env) (db : Db) (p : DocumentPayload) : Date :=
  (p.issuedOn.or ((storedDocument db p).map fun s => s.2.documentDate)).getD env.today

/-- Everything the lines of a body decide: their rows and the eight amounts. -/
def documentTotals (db : Db) (p : DocumentPayload) (lines : List LinePayload) (rate : ℚ) (precision : ℕ) :
    Result (Amounts × Amounts × List DocumentLine) := do
  let drafts ← draftLinesFrom db 0 lines
  let exact := ExactAmounts.ofLines drafts
  check (p.manualOrder.isSome → 0 < exact.total) (.invalid "Enter a positive entry amount."
    [("lines.0.unitPrice", "Amount must be greater than zero.")])
  let rows ← rowsFrom 1 drafts
  let amounts ← exact.toRow
  let baseAmounts ← exact.toBaseRow rate precision
  return (amounts, baseAmounts, rows)

def saveDocument (env : Env) (db : Db) (p : DocumentPayload) : Result (Db × ℕ) := do
  RecordSchema.validate (documentWriteSchema p)
  let (typeId, documentType) ← resolveDocumentType db p
  check (∀ issued ∈ p.issuedOn, ∀ due ∈ p.dueDate.get?, issued ≤ due) (.invalid
    "The due date cannot precede the document date." [("dueDate", "Cannot be before the document date.")])
  let stored := storedDocument db p
  let lines ← rowsOf documentLineSchema p.lines
  checkManualEntry db p lines
  let (currency, rate, base, precision) ← documentCurrencyInputs db p.exchangeRate.get? (p.currencyText db)
    db.defaultCurrency (p.rateDate env db) (stored.map fun s => s.2.exchangeRate.val)
  let storedRate ← store 19 8 rate
  match stored with
  | none =>
    let (sequences, header) ← newHeader env db p documentType currency storedRate base
    let (amounts, baseAmounts, rows) ← documentTotals db p lines rate precision
    let document : Document :=
      { header with amounts := amounts, baseAmounts := baseAmounts, lines := rows, documentTypeId := typeId }
    return ({ db with sequences := sequences, documents := db.documents.insert document }, db.documents.nextId)
  | some (id, d) =>
    let header ← updatedHeader p documentType d currency storedRate base
    let (amounts, baseAmounts, rows) ← documentTotals db p lines rate precision
    let document : Document :=
      { header with amounts := amounts, baseAmounts := baseAmounts, lines := rows, documentTypeId := typeId }
    return ({ db with documents := db.documents.modify id fun _ => document }, id)

end LcsSystem
