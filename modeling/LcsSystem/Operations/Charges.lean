import LcsSystem.Finance.Invoices

/-!
# Service charges

`save_charge`, `issue_charge`, `delete_charges` and `charge_to_invoice`
(`src/backend/app/modules/operations/service.py:1024-1222`, schemas in `modules/operations/schemas.py`).

The body is read after alias resolution, as in `Finance.Documents`; `documentNo` is the alias of
`chargeNo` that the service still sees when a body carries both. `charges.data`, the echo of the
header, is left out.
-/

namespace LcsSystem
open Calendar Relational DecimalArith Checks

/-! ## Payloads -/

structure ChargeLinePayload extends TaxInput where
  description : Field String
  feeTypeId : Field ℕ
  feeType : Field String
  quantity : Field ℚ
  unitPrice : Field ℚ
  unitAmount : Field ℚ
  discount : Field ℚ
  unit : Field String
  containerId : Field ℕ
  serviceOrderContainerId : Field ℕ

structure ChargePayload where
  id : Field ℕ
  jobNo : Field String
  serviceOrderId : Field String
  chargeNo : Field String
  documentNo : Field String
  documentType : Field String
  documentDate : Field Date
  currency : Field String
  remark : Field String
  lines : Field (List ChargeLinePayload)
  chargeLines : Field (List ChargeLinePayload)
  feeLines : Field (List ChargeLinePayload)

/-- A row `{}`, and a body `{}`. -/
def ChargeLinePayload.empty : ChargeLinePayload where
  taxRate := .absent
  taxAmount := .absent
  tax := .absent
  description := .absent
  feeTypeId := .absent
  feeType := .absent
  quantity := .absent
  unitPrice := .absent
  unitAmount := .absent
  discount := .absent
  unit := .absent
  containerId := .absent
  serviceOrderContainerId := .absent

def ChargePayload.empty : ChargePayload where
  id := .absent
  jobNo := .absent
  serviceOrderId := .absent
  chargeNo := .absent
  documentNo := .absent
  documentType := .absent
  documentDate := .absent
  currency := .absent
  remark := .absent
  lines := .absent
  chargeLines := .absent
  feeLines := .absent

/-- `CHARGE_LINE_SCHEMA`. -/
def chargeLineSchema (line : ChargeLinePayload) : List FieldErrorItem :=
  TextSpec.check { key := "description", maxLength := some 1000 } line.description ++
  checkReference "feeTypeId" line.feeTypeId ++
  TextSpec.check { key := "feeType", maxLength := some 255 } line.feeType ++
  DecimalSpec.check { key := "quantity", minimum := some zeroBound, decimalPlaces := some 3 } line.quantity ++
  DecimalSpec.check { key := "unitPrice" } line.unitPrice ++
  DecimalSpec.check { key := "unitAmount" } line.unitAmount ++
  DecimalSpec.check { key := "discount", minimum := some zeroBound } line.discount ++
  DecimalSpec.check { key := "taxRate", minimum := some zeroBound, maximum := some ⟨100, "100"⟩ } line.taxRate ++
  DecimalSpec.check { key := "tax", minimum := some zeroBound, maximum := some ⟨100, "100"⟩ } line.tax ++
  DecimalSpec.check { key := "taxAmount", minimum := some zeroBound } line.taxAmount ++
  TextSpec.check { key := "unit", maxLength := some 32 } line.unit ++
  checkReference "containerId" line.containerId ++
  checkReference "serviceOrderContainerId" line.serviceOrderContainerId

def chargeDocumentTypes : List String := ["SERVICE_NOTE", "DEBIT_NOTE", "PRO_FORMA"]

/-- `CHARGE_WRITE_SCHEMA`; no field of it is required. -/
def chargeWriteSchema (p : ChargePayload) : List FieldErrorItem :=
  TextSpec.check { key := "jobNo", maxLength := some 64 } p.jobNo ++
  checkReference "serviceOrderId" p.serviceOrderId ++
  TextSpec.check { key := "chargeNo", maxLength := some 50 } p.chargeNo ++
  TextSpec.checkChoice { key := "documentType", maxLength := some 32 } chargeDocumentTypes p.documentType ++
  checkDate "documentDate" p.documentDate ++
  TextSpec.check { key := "currency", minLength := some 3, maxLength := some 3 } p.currency ++
  TextSpec.check { key := "remark", maxLength := some 5000 } p.remark

/-! ## Lines -/

/-- The figures of a money line before its columns round them. -/
structure LineFigures where
  quantity : ℚ
  unitPrice : ℚ
  base : ℚ
  discount : ℚ
  taxRate : ℚ
  taxAmount : ℚ

/-- `line_total = base - discount + tax_amount`. -/
def LineFigures.amount (l : LineFigures) : ℚ := l.base - l.discount + l.taxAmount

/-- The money part of one turn of the loop over the lines. A quantity of zero reads as 1. -/
def chargeFigures (pre : String) (line : ChargeLinePayload) : Result LineFigures := do
  let unitValue := if line.unitPrice.given then line.unitPrice else line.unitAmount
  let sent ← parseDecimal line.quantity (pre ++ ".quantity") 1 3
  let quantity := if sent = 0 then 1 else sent
  let unitPrice ← parseDecimal unitValue (pre ++ ".unitPrice") 0 4
  let discount ← parseDecimal line.discount (pre ++ ".discount") 0 4
  let base := mul quantity unitPrice
  check (0 < quantity) (.invalid "Charge quantity must be greater than zero."
    [(pre ++ ".quantity", "Must be positive")])
  check (0 ≤ unitPrice) (.invalid "Charge unit price cannot be negative."
    [(pre ++ ".unitPrice", "Cannot be negative")])
  check (0 ≤ discount ∧ discount ≤ base) (.invalid "Charge discount must be between zero and the line subtotal."
    [(pre ++ ".discount", "Invalid discount")])
  let tax ← resolveLineTax line.toTaxInput (base - discount) pre
  check (0 ≤ tax.2.1) (.invalid "Charge tax cannot be negative." [(pre ++ "." ++ tax.1, "Cannot be negative")])
  check (0 ≤ tax.2.2 ∧ tax.2.2 ≤ 100) (.invalid "Charge tax rate must be between 0 and 100."
    [(pre ++ "." ++ tax.1, "Invalid tax rate")])
  return { quantity, unitPrice, base, discount, taxRate := tax.2.2, taxAmount := tax.2.1 }

structure ChargeLineDraft extends LineFigures where
  description : String
  feeTypeId : Option ℕ
  unitCode : Option String
  containerId : Option ℕ

/-- One turn of the loop over the lines of a charge of `orderId`. -/
def draftOfChargeLine (db : Db) (orderId : ℕ) (field : String) (index : ℕ) (line : ChargeLinePayload) :
    Result ChargeLineDraft := do
  let pre := field ++ "." ++ toString index
  let figures ← chargeFigures pre line
  let containerId := line.containerId.get?.or line.serviceOrderContainerId.get?
  check (∀ id ∈ containerId, ∃ c ∈ db.containers.get? id, c.serviceOrderId = orderId)
    (.invalid "A charge line container must belong to the service order."
      [(pre ++ ".containerId", "Container does not belong to this service order")])
  return {
    toLineFigures := figures
    description := (line.description.text.get?.or line.feeType.text.get?).getD "Charge"
    feeTypeId := resolveFeeType db line.feeTypeId.get? line.feeType.text.get?
    unitCode := line.unit.text.get?
    containerId }

def chargeDraftsFrom (db : Db) (orderId : ℕ) (field : String) :
    ℕ → List ChargeLinePayload → Result (List ChargeLineDraft)
  | _, [] => .ok []
  | index, line :: lines => do
    let draft ← draftOfChargeLine db orderId field index line
    let drafts ← chargeDraftsFrom db orderId field (index + 1) lines
    return draft :: drafts

/-- The row of a line: every column rounds on its own. -/
def ChargeLineDraft.row (lineNo : ℕ) (l : ChargeLineDraft) : Result ChargeLine := do
  let quantity ← store 12 3 l.quantity
  let unitPrice ← storeMoney l.unitPrice
  let discountAmount ← storeMoney l.discount
  let taxRate ← store 7 4 l.taxRate
  let taxAmount ← storeMoney l.taxAmount
  let lineAmount ← storeMoney l.amount
  return {
    description := l.description, feeTypeId := l.feeTypeId
    quantity, unitPrice, discountAmount, taxRate, taxAmount, lineAmount
    unitCode := l.unitCode
    serviceOrderContainerId := l.containerId
    lineNo }

def chargeRowsFrom : ℕ → List ChargeLineDraft → Result (List ChargeLine)
  | _, [] => .ok []
  | lineNo, l :: ls => do
    let row ← l.row lineNo
    let rows ← chargeRowsFrom (lineNo + 1) ls
    return row :: rows

def ExactAmounts.ofFigures (ls : List LineFigures) : ExactAmounts where
  subtotal := (ls.map LineFigures.base).sum
  discount := (ls.map LineFigures.discount).sum
  tax := (ls.map LineFigures.taxAmount).sum

/-- Everything the lines of a body decide: their rows and the four amounts. -/
def chargePricing (db : Db) (orderId : ℕ) (field : String) (lines : List ChargeLinePayload) :
    Result (Amounts × List ChargeLine) := do
  let drafts ← chargeDraftsFrom db orderId field 0 lines
  let rows ← chargeRowsFrom 1 drafts
  let amounts ← (ExactAmounts.ofFigures (drafts.map ChargeLineDraft.toLineFigures)).toRow
  return (amounts, rows)

/-! ## save_charge -/

/-- The first spelling of the lines that the body carries. -/
def ChargePayload.lineField (p : ChargePayload) : Option (String × Field (List ChargeLinePayload)) :=
  [("lines", p.lines), ("chargeLines", p.chargeLines), ("feeLines", p.feeLines)].find? fun f => f.2.sent

/-- `OperationsRepository.resolve_order`: by id, else by order number. -/
def resolveOrder (db : Db) (identifier : String) : Option (ℕ × ServiceOrder) :=
  match (digits? identifier).bind fun id => (db.serviceOrders.get? id).map fun o => (id, o) with
  | some found => some found
  | none => db.serviceOrders.rows.find? fun r => r.2.serviceOrderNo == identifier

/-- The stored charge an update names. -/
def storedCharge (db : Db) (p : ChargePayload) : Option (ℕ × ServiceOrderCharge) :=
  p.id.get?.bind fun id => (db.charges.get? id).map fun c => (id, c)

/-- The amounts and lines of the charge after the body: rebuilt only when the body carries lines. -/
def sentLines (db : Db) (p : ChargePayload) (orderId : ℕ) (charge : ServiceOrderCharge) :
    Result (Amounts × List ChargeLine) :=
  match p.lineField with
  | some (field, rows) => do
    let rows ← rowsOf chargeLineSchema rows field
    chargePricing db orderId field rows
  | none => .ok (charge.amounts, charge.lines)

/-- What the lines and the remark of a body write into a charge; a key that was not sent keeps the
stored value. -/
def applyChargeBody (db : Db) (p : ChargePayload) (orderId : ℕ) (charge : ServiceOrderCharge) :
    Result ServiceOrderCharge := do
  let (amounts, lines) ← sentLines db p orderId charge
  return { charge with
    amounts := amounts
    lines := lines
    remark := if p.remark.sent then p.remark.text.get? else charge.remark }

/-- A new draft: numbered from the sequence unless a number was typed. -/
def newCharge (env : Env) (db : Db) (p : ChargePayload) (orderId : ℕ) (currency : CurrencyCode) :
    Result (Table DocumentSequence × ServiceOrderCharge) := do
  let typed := (p.chargeNo.text.get?.or p.documentNo.get?).filter fun n => strip n != ""
  let (sequences, number) := match typed with
    | some number => (db.sequences, number)
    | none => allocateNumber env db.sequences "SERVICE_CHARGE"
  check (∀ c ∈ db.charges.values, c.chargeNo ≠ number)
    (.database "duplicate key value violates unique constraint uq_service_order_charges_no")
  return (sequences, {
    serviceOrderId := orderId
    chargeNo := number
    documentType := (p.documentType.text.get?.map upper).getD "SERVICE_NOTE"
    documentDate := p.documentDate.get?.getD env.today
    currencyCode := currency
    issued := false
    amounts := 0
    remark := none
    lines := [] })

/-- The service order of the request: of its path, of the body, or of the stored charge. -/
def ChargePayload.orderReference (p : ChargePayload) (orderIdentifier : Option String)
    (stored : Option (ℕ × ServiceOrderCharge)) : Option String :=
  ((orderIdentifier.or p.jobNo.text.get?).or p.serviceOrderId.text.get?).or
    (stored.map fun s => toString s.2.serviceOrderId)

/-- The currency of the body, upper-cased and checked against the active ones. -/
def sentCurrency (db : Db) (p : ChargePayload) : Result (Option CurrencyCode) :=
  match p.currency.text.get? with
  | some text => some <$> assertCurrencyCode db text "currency"
  | none => .ok none

def saveCharge (env : Env) (db : Db) (p : ChargePayload) (orderIdentifier : Option String) : Result (Db × ℕ) := do
  RecordSchema.validate (chargeWriteSchema p)
  let currency ← sentCurrency db p
  let stored := storedCharge db p
  let identifier ← require (p.orderReference orderIdentifier stored)
    (.invalid "A service order is required." [("jobNo", "Required")])
  let (orderId, order) ← require (resolveOrder db identifier) orderNotFound
  check (order.inactive = false) (.invalidState "Cannot add charges to an inactive service order.")
  check (∀ s ∈ stored, s.2.issued = false) (.invalidState "Only draft service charges can be edited.")
  match stored with
  | none =>
    let (sequences, draft) ← newCharge env db p orderId (currency.getD order.currencyCode)
    let charge ← applyChargeBody db p orderId draft
    return ({ db with sequences := sequences, charges := db.charges.insert charge }, db.charges.nextId)
  | some (id, stored) =>
    let charge ← applyChargeBody db p orderId stored
    return ({ db with charges := db.charges.modify id fun _ => charge }, id)

/-! ## Issuing and deleting -/

def ServiceOrderCharge.issue (c : ServiceOrderCharge) : ServiceOrderCharge := { c with issued := true }

/-- `issue_charge`: the charge becomes ISSUED and its invoice is prepared in the same transaction. -/
def issueCharge (env : Env) (db : Db) (chargeId : ℕ) : Result (Db × ℕ) := do
  let charge ← require (db.charges.get? chargeId) chargeNotFound
  check (charge.lines ≠ [] ∧ 0 < charge.amounts.total.val)
    (.invalid "A service charge must have at least one positive line before it can be issued." [])
  createInvoiceFromCharge env { db with charges := db.charges.modify chargeId .issue } chargeId

/-- `charge_to_invoice`. -/
def chargeToInvoice (env : Env) (db : Db) (chargeId : ℕ) : Result (Db × ℕ) :=
  createInvoiceFromCharge env db chargeId

/-- `delete_charges`: the drafts among `ids` are deleted, the others are skipped. -/
def deleteCharges (db : Db) (ids : List ℕ) : Db :=
  { db with charges := db.charges.erase fun id c => decide (id ∈ ids) && !c.issued }

end LcsSystem
