import LcsSystem.Finance.Documents

/-!
# Customer invoices generated from service charges

`create_invoice_from_charge` and `create_invoice_from_service_order`
(`src/backend/app/modules/finance/service.py:1538-1800`). Both write a draft customer invoice whose
lines are copied from the charges and record where it came from; the first resolves the conversion
of the invoice, the second copies the order's currency and leaves every conversion column at its
default.
-/

namespace LcsSystem
open Calendar Relational DecimalArith Checks

/-- A copied line: the columns of the charge line but its unit, numbered in the invoice. -/
def ChargeLine.toDocumentLine (l : ChargeLine) (lineNo : ℕ) (serviceOrderId : ℕ) : DocumentLine :=
  { l.toLineValues with
    unitCode := none, lineNo := lineNo, serviceOrderId := some serviceOrderId, accountId := none }

/-- The invoice both creators write, with the conversion columns at their defaults. -/
def invoiceHeader (env : Env) (number : String) (partyId : Option ℕ) (orderId : ℕ) (currency : CurrencyCode)
    (description : String) (amounts : Amounts) (lines : List DocumentLine) : Document where
  documentNo := number
  documentType := .customerInvoice
  documentDate := env.today
  postingDate := none
  status := .draft
  partyId := partyId
  serviceOrderId := some orderId
  currencyCode := currency
  exchangeRate := ⟨1, by decide +kernel, by norm_num⟩
  baseCurrencyCode := none
  description := some description
  referenceNumber := none
  dueDate := none
  paymentMethodCode := none
  financialAccountId := none
  valueDate := none
  amounts := amounts
  baseAmounts := 0
  paidAmount := 0
  createdByUserId := env.userId
  postedByUserId := none
  documentTypeId := none
  lines := lines

/-- The invoice already generated from a charge, when its document is still there. -/
def invoiceOfCharge (db : Db) (chargeId : ℕ) : Option ℕ :=
  (db.sources.values.find? fun s => decide (s.sourceType = .serviceOrderCharge ∧ s.sourceId = chargeId)).bind
    fun s => (db.documents.get? s.financialDocumentId).map fun _ => s.financialDocumentId

/-- The writes of `create_invoice_from_charge`, once no invoice was found. -/
def writeChargeInvoice (env : Env) (db : Db) (chargeId : ℕ) (charge : ServiceOrderCharge) : Result (Db × ℕ) := do
  let order := db.serviceOrders.get? charge.serviceOrderId
  let (sequences, number) := allocateNumber env db.sequences "CUSTOMER_INVOICE"
  let (currency, rate, base, precision) ←
    documentCurrencyInputs db none charge.currencyCode.code db.defaultCurrency env.today none
  let storedRate ← store 19 8 rate
  let baseAmounts ← charge.amounts.toBaseRow rate precision
  checkDocumentNo db number
  let header := invoiceHeader env number (order.map ServiceOrder.customerPartyId) charge.serviceOrderId currency
    ("Generated from service charge " ++ charge.chargeNo) charge.amounts
    (charge.lines.map fun l => l.toDocumentLine l.lineNo charge.serviceOrderId)
  let document : Document :=
    { header with exchangeRate := storedRate, baseCurrencyCode := some base, baseAmounts := baseAmounts }
  let id := db.documents.nextId
  return ({ db with
    sequences := sequences
    documents := db.documents.insert document
    sources := db.sources.insert ⟨id, .serviceOrderCharge, chargeId⟩ }, id)

def chargeNotFound : Error := .notFound "Service charge not found."

def createInvoiceFromCharge (env : Env) (db : Db) (chargeId : ℕ) : Result (Db × ℕ) := do
  let charge ← require (db.charges.get? chargeId) chargeNotFound
  check (charge.issued = true) (.invalidState "Only an issued service charge can create a finance invoice.")
  match invoiceOfCharge db chargeId with
  | some id => return (db, id)
  | none => writeChargeInvoice env db chargeId charge

/-! ## From a service order -/

def notReversed (db : Db) (id : ℕ) : Bool := (db.documents.get? id).any fun d => d.status != .reversed

/-- `_service_order_invoice_documents`: the order's own invoices, else those of its charges. -/
def serviceOrderInvoices (db : Db) (orderId : ℕ) : List ℕ :=
  let ofSources (p : FinancialDocumentSource → Bool) : List ℕ :=
    (((db.sources.values.filter p).map FinancialDocumentSource.financialDocumentId).filter
      (notReversed db)).insertionSort (· ≤ ·)
  match ofSources fun s => s.sourceType == .serviceOrder && s.sourceId == orderId with
  | [] => ofSources fun s => s.sourceType == .serviceOrderCharge &&
      (db.charges.get? s.sourceId).any fun c => c.serviceOrderId == orderId
  | ids => ids

/-- The charges of the order that no invoice was generated from. -/
def pendingCharges (db : Db) (orderId : ℕ) : List (ℕ × ServiceOrderCharge) :=
  (db.charges.rows.filter fun r => r.2.serviceOrderId == orderId).filter fun r =>
    db.sources.values.all fun s => !(s.sourceType == .serviceOrderCharge && s.sourceId == r.1)

/-- A column of the charges, added up. -/
def sumColumn (charges : List (ℕ × ServiceOrderCharge)) (column : Amounts → Money) : Result Money :=
  storeMoney ((charges.map fun c => (column c.2.amounts).val).sum)

/-- The sources an order invoice records: one row for each charge, then the order's own. -/
def orderSources (sources : Table FinancialDocumentSource) (id orderId : ℕ)
    (pending : List (ℕ × ServiceOrderCharge)) : Table FinancialDocumentSource :=
  (pending.foldl (fun t c => t.insert ⟨id, .serviceOrderCharge, c.1⟩) sources).insert ⟨id, .serviceOrder, orderId⟩

/-- The writes of `create_invoice_from_service_order`, for the charges it found pending. -/
def writeOrderInvoice (env : Env) (db : Db) (orderId : ℕ) (order : ServiceOrder)
    (pending : List (ℕ × ServiceOrderCharge)) : Result (Db × ℕ) := do
  let subtotal ← sumColumn pending Amounts.subtotal
  let discount ← sumColumn pending Amounts.discount
  let tax ← sumColumn pending Amounts.tax
  let total ← sumColumn pending Amounts.total
  let (sequences, number) := allocateNumber env db.sequences "CUSTOMER_INVOICE"
  checkDocumentNo db number
  let lines := (pending.flatMap fun c => c.2.lines).zipIdx.map fun (l, i) => l.toDocumentLine (i + 1) orderId
  let document := invoiceHeader env number (some order.customerPartyId) orderId order.currencyCode
    ("Service order " ++ order.serviceOrderNo) ⟨subtotal, discount, tax, total⟩ lines
  let id := db.documents.nextId
  return ({ db with
    sequences := sequences
    documents := db.documents.insert document
    sources := orderSources db.sources id orderId pending }, id)

def orderNotFound : Error := .notFound "Service order not found."

def createInvoiceFromServiceOrder (env : Env) (db : Db) (orderId : ℕ) : Result (Db × ℕ) := do
  let order ← require (db.serviceOrders.get? orderId) orderNotFound
  match serviceOrderInvoices db orderId with
  | id :: _ => return (db, id)
  | [] =>
    check (db.charges.values.any (fun c => c.serviceOrderId == orderId) = true)
      (.invalid "No service charges to invoice." [])
    let pending := pendingCharges db orderId
    check (pending ≠ []) (.invalid "All service charges for this order are already invoiced." [])
    writeOrderInvoice env db orderId order pending

end LcsSystem
