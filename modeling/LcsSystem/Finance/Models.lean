import LcsSystem.Core.Fx
import LcsSystem.Lib.Table
import LcsSystem.Lib.Calendar

/-!
# Rows of the finance schema

`src/backend/app/modules/finance/models.py` and the master-data and operations rows the finance
services read. A money column is a `Money`, a rate column a `Rate`: a row can only hold what its
columns can. The lines of a document, of a charge and of a journal entry are nested in their parent,
in `line_no` order.

Left out are the columns that no modelled function reads: timestamps, names, and of
`financial_documents.data` everything but the document type that is chosen on the form.
-/

namespace LcsSystem
open DecimalArith Calendar Relational

/-! ## Document types -/

inductive DocType
  | customerInvoice | creditNote | supplierBill | supplierCreditNote | customerReceipt | supplierPayment
  | otherIncome | otherExpense | transfer | adjustment
  deriving DecidableEq, Repr

namespace DocType

def all : List DocType :=
  [customerInvoice, creditNote, supplierBill, supplierCreditNote, customerReceipt, supplierPayment,
    otherIncome, otherExpense, transfer, adjustment]

def code : DocType → String
  | customerInvoice => "CUSTOMER_INVOICE"
  | creditNote => "CREDIT_NOTE"
  | supplierBill => "SUPPLIER_BILL"
  | supplierCreditNote => "SUPPLIER_CREDIT_NOTE"
  | customerReceipt => "CUSTOMER_RECEIPT"
  | supplierPayment => "SUPPLIER_PAYMENT"
  | otherIncome => "OTHER_INCOME"
  | otherExpense => "OTHER_EXPENSE"
  | transfer => "TRANSFER"
  | adjustment => "ADJUSTMENT"

/-- Membership in `KNOWN_DOCUMENT_TYPES`. -/
def ofCode? (s : String) : Option DocType := all.find? fun t => t.code == s

/-- `PAYMENT_TYPES`. -/
def isPayment : DocType → Bool
  | customerReceipt | supplierPayment => true
  | _ => false

/-- `ALLOCATABLE_TYPES`. -/
def isAllocatable : DocType → Bool
  | customerInvoice | supplierBill => true
  | _ => false

/-- No document can be both sides of an allocation. -/
theorem not_isAllocatable_of_isPayment {t : DocType} (h : t.isPayment = true) : t.isAllocatable = false := by
  cases t <;> simp_all [isPayment, isAllocatable]

end DocType

/-! ## Master data -/

structure Currency where
  code : CurrencyCode
  decimalPlaces : ℤ
  active : Bool

structure CurrencyRate where
  fromCurrencyCode : CurrencyCode
  toCurrencyCode : CurrencyCode
  rate : Rate
  effectiveDate : Date
  approved : Bool

/-- An administrator-managed document type; accounting reads `accountingBehavior` only. -/
structure DocumentTypeRecord where
  code : String
  category : String
  accountingBehavior : String
  availableIn : List String
  active : Bool
  deleted : Bool

structure FeeType where
  code : String
  name : String
  deleted : Bool

structure BusinessParty where
  active : Bool

structure ServiceOrder where
  serviceOrderNo : String
  customerPartyId : ℕ
  currencyCode : CurrencyCode
  /-- `status == "INACTIVE"`. -/
  inactive : Bool

structure ServiceOrderContainer where
  serviceOrderId : ℕ

structure ChartOfAccount where
  accountCode : String
  isPostable : Bool
  active : Bool
  deriving DecidableEq

structure PostingRule where
  documentType : DocType
  feeTypeId : Option ℕ
  debitAccountId : ℕ
  creditAccountId : ℕ
  taxAccountId : Option ℕ
  active : Bool
  priority : ℤ

/-! ## Periods and sequences -/

/-- `accounting_periods.status`: the services write the first two, older rows hold other text. -/
inductive PeriodStatus
  | opened
  | closed
  | other (text : String)
  deriving DecidableEq, Repr

structure AccountingPeriod where
  periodYear : ℕ
  periodMonth : ℕ
  startDate : Date
  endDate : Date
  status : PeriodStatus
  closedByUserId : Option ℕ
  deriving DecidableEq

def AccountingPeriod.covers (p : AccountingPeriod) (d : Date) : Bool := decide (p.startDate ≤ d ∧ d ≤ p.endDate)

structure DocumentSequence where
  documentType : String
  periodYear : ℕ
  sequencePrefix : String
  lastValue : ℕ
  paddingLength : ℕ

/-! ## Documents -/

/-- The columns that a charge line and a document line share. -/
structure LineValues where
  description : String
  feeTypeId : Option ℕ
  quantity : Quantity
  unitCode : Option String
  unitPrice : Money
  discountAmount : Money
  taxRate : TaxRate
  taxAmount : Money
  lineAmount : Money
  serviceOrderContainerId : Option ℕ
  deriving DecidableEq

structure DocumentLine extends LineValues where
  lineNo : ℕ
  serviceOrderId : Option ℕ
  accountId : Option ℕ
  deriving DecidableEq

structure Amounts where
  subtotal : Money
  discount : Money
  tax : Money
  total : Money
  deriving DecidableEq

instance : Zero Amounts := ⟨⟨0, 0, 0, 0⟩⟩

inductive DocStatus
  | draft
  | posted
  | reversed
  deriving DecidableEq, Repr

def DocStatus.code : DocStatus → String
  | draft => "DRAFT"
  | posted => "POSTED"
  | reversed => "REVERSED"

structure Document where
  documentNo : String
  documentType : DocType
  documentDate : Date
  postingDate : Option Date
  status : DocStatus
  partyId : Option ℕ
  serviceOrderId : Option ℕ
  currencyCode : CurrencyCode
  exchangeRate : Rate
  baseCurrencyCode : Option CurrencyCode
  description : Option String
  referenceNumber : Option String
  dueDate : Option Date
  paymentMethodCode : Option String
  financialAccountId : Option ℕ
  valueDate : Option Date
  amounts : Amounts
  baseAmounts : Amounts
  paidAmount : Money
  createdByUserId : Option ℕ
  postedByUserId : Option ℕ
  /-- `data["documentTypeId"]`. -/
  documentTypeId : Option ℕ
  lines : List DocumentLine
  deriving DecidableEq

/-! ## Charges -/

structure ChargeLine extends LineValues where
  lineNo : ℕ
  deriving DecidableEq

/-- `issued` is the status: DRAFT and ISSUED are the only two the services write. -/
structure ServiceOrderCharge where
  serviceOrderId : ℕ
  chargeNo : String
  documentType : String
  documentDate : Date
  currencyCode : CurrencyCode
  issued : Bool
  amounts : Amounts
  remark : Option String
  lines : List ChargeLine
  deriving DecidableEq

inductive SourceType
  | serviceOrder
  | serviceOrderCharge
  deriving DecidableEq

structure FinancialDocumentSource where
  financialDocumentId : ℕ
  sourceType : SourceType
  sourceId : ℕ
  deriving DecidableEq

/-! ## Journals -/

structure JournalEntryLine where
  lineNo : ℕ
  accountId : ℕ
  partyId : Option ℕ
  serviceOrderId : Option ℕ
  financialDocumentId : Option ℕ
  description : Option String
  debitAmount : Money
  creditAmount : Money
  currencyCode : CurrencyCode
  exchangeRate : Rate
  baseDebitAmount : Money
  baseCreditAmount : Money
  deriving DecidableEq

inductive EntryStatus
  | draft
  | posted
  deriving DecidableEq, Repr

structure JournalEntry where
  entryNo : String
  entryType : String
  entryDate : Date
  postingDate : Date
  accountingPeriodId : Option ℕ
  status : EntryStatus
  description : Option String
  sourceDocumentId : Option ℕ
  postingRuleId : Option ℕ
  reversalOfJournalEntryId : Option ℕ
  createdByUserId : Option ℕ
  postedByUserId : Option ℕ
  debitTotal : Money
  creditTotal : Money
  lines : List JournalEntryLine
  deriving DecidableEq

structure FinancialDocumentPosting where
  financialDocumentId : ℕ
  journalEntryId : ℕ
  deriving DecidableEq

structure FinancialDocumentAllocation where
  paymentDocumentId : ℕ
  targetDocumentId : ℕ
  allocatedAmount : Money
  allocatedCurrencyCode : CurrencyCode
  exchangeRate : Rate
  createdByUserId : Option ℕ
  idempotencyKey : Option String
  deriving DecidableEq

/-! ## The database -/

structure Db where
  /-- The `currency` of the localization setting. -/
  defaultCurrency : CurrencyCode
  currencies : List Currency
  currencyRates : Table CurrencyRate
  documentTypes : Table DocumentTypeRecord
  feeTypes : Table FeeType
  parties : Table BusinessParty
  serviceOrders : Table ServiceOrder
  containers : Table ServiceOrderContainer
  charges : Table ServiceOrderCharge
  accounts : Table ChartOfAccount
  postingRules : Table PostingRule
  periods : Table AccountingPeriod
  sequences : Table DocumentSequence
  documents : Table Document
  sources : Table FinancialDocumentSource
  entries : Table JournalEntry
  postings : Table FinancialDocumentPosting
  allocations : Table FinancialDocumentAllocation

/-- What a request reads beside the database: the clock and the caller. -/
structure Env where
  today : Date
  utcYear : ℕ
  userId : Option ℕ

end LcsSystem
