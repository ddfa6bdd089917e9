import LcsSystem.MasterData.ListPages
import LcsSystem.Reports.Ledger

/-!
# The general ledger

`general_ledger` and `export_general_ledger` (`src/backend/app/modules/reports/ledger_reports.py:196-264, 355-396`) over
the statements of `modules/reports/repository.py`.

| here | there |
|---|---|
| `postedLedgerRows` | `_posted_ledger_statement`, with its outer joins |
| `ledgerConditions` | `_ledger_conditions`; the days are those before the period or those within it |
| `ledgerOpeningBalances` | `_opening_balances_statement`, nothing without a first day |
| `generalLedgerTotals` | `general_ledger_totals` |
| `generalLedgerStatement` | `_general_ledger_statement`: the window over all rows, then the order |
| `ledgerItem` | `_ledger_item`; the key of a line stands for its `id` |

An exported file is its rows and its totals.
-/

namespace LcsSystem
open Calendar Relational Checks Grouping

structure GeneralLedgerFilters extends ReportFilters where
  accountCode : Option String := none
  party : Option String := none
  voucherType : Option String := none
  voucherNo : Option String := none
  currency : Option String := none

/-! ## Rows -/

structure LedgerRow where
  line : LedgerLine
  sourceDocumentNo : Option String
  partyName : Option String
  financialAccountId : Option ℕ

/-- `LEFT OUTER JOIN financial_accounts`. -/
def ReportDb.financialAccountsOf (db : ReportDb) (accountId : ℕ) : List (Option ℕ) :=
  match db.financialAccounts.rows.filter fun r => r.2 = accountId with
  | [] => [none]
  | rows => rows.map fun r => some r.1

def ReportDb.joinRow (db : ReportDb) (x : LedgerLine) : List LedgerRow :=
  (db.financialAccountsOf x.accountId).map fun financialAccountId =>
    { line := x
      sourceDocumentNo := x.entry.sourceDocumentId.bind db.documents.get?
      partyName := x.line.partyId.bind db.parties.get?
      financialAccountId := financialAccountId }

def postedLedgerRows (db : ReportDb) : List LedgerRow := db.postedLedger.flatMap db.joinRow

/-- A text that is there and not empty has to match. -/
def whenGiven (text : Option String) (isMatch : String → Bool) : Bool := text.all fun s => s = "" || isMatch s

def ledgerConditions (db : ReportDb) (f : GeneralLedgerFilters) (days : Date → Bool) (x : LedgerLine) : Bool :=
  days x.postingDate &&
  whenGiven f.accountCode (fun accountCode => x.account.accountCode = accountCode) &&
  whenGiven f.party (fun party => x.line.partyId.any fun id => (db.parties.get? id).any fun name =>
    ReferenceRow.ilike ("%" ++ party ++ "%") name) &&
  whenGiven f.voucherType (fun voucherType => upper x.entry.entryType = upper voucherType) &&
  whenGiven f.voucherNo (fun voucherNo => ReferenceRow.ilike ("%" ++ voucherNo ++ "%") x.entry.entryNo) &&
  whenGiven f.currency (fun currency => upper x.line.currencyCode.code = upper currency)

/-- From the first day to the last one, both when given. -/
def Scope.includes (scope : Scope) (d : Date) : Bool := !scope.isOpening d && scope.isClosed d

/-! ## The statements -/

/-- Signed movement per account before the period. -/
def ledgerOpeningBalances (db : ReportDb) (f : GeneralLedgerFilters) (scope : Scope) : List (ℕ × ℚ) :=
  match scope.fromDate with
  | none => []
  | some fromDate =>
    let lines := db.postedLedger.filter (ledgerConditions db f fun d => d < fromDate)
    (lines.map LedgerLine.accountId).dedup.map fun id => (id, groupSum LedgerLine.accountId LedgerLine.net lines id)

/-- `openings.get(account_id, ZERO)`. -/
def openingOf (openings : List (ℕ × ℚ)) (accountId : ℕ) : ℚ :=
  ((openings.find? fun o => o.1 = accountId).map Prod.snd).getD 0

structure LedgerTotals where
  total : ℕ
  debit : ℚ
  credit : ℚ
  deriving DecidableEq

def generalLedgerTotals (db : ReportDb) (f : GeneralLedgerFilters) (scope : Scope) : LedgerTotals :=
  let lines := db.postedLedger.filter (ledgerConditions db f scope.includes)
  ⟨lines.length, (lines.map LedgerLine.debit).sum, (lines.map LedgerLine.credit).sum⟩

/-- The columns of the `ORDER BY`: posting date, journal and line number. -/
def LedgerLine.position (x : LedgerLine) : Date ×ₗ ℕ ×ₗ ℕ := toLex (x.postingDate, toLex (x.journalId, x.line.lineNo))

def LedgerRow.accountId (row : LedgerRow) : ℕ := row.line.accountId
def LedgerRow.position (row : LedgerRow) : Date ×ₗ ℕ ×ₗ ℕ := row.line.position
def LedgerRow.net (row : LedgerRow) : ℚ := row.line.net

/-- The rows in order, each with its `running_balance`. -/
def generalLedgerStatement (db : ReportDb) (f : GeneralLedgerFilters) (scope : Scope) : List (LedgerRow × ℚ) :=
  let rows := (postedLedgerRows db).filter fun row => ledgerConditions db f scope.includes row.line
  (rows.insertionSort fun a b => a.position ≤ b.position).map fun row =>
    (row, runningSum LedgerRow.accountId LedgerRow.position LedgerRow.net rows row)

/-! ## The report -/

structure LedgerItem where
  postingDate : Date
  journalNo : String
  journalId : ℕ
  lineNo : ℕ
  voucherType : String
  sourceDocument : Option String
  sourceDocumentId : Option ℕ
  accountId : ℕ
  accountCode : String
  accountName : String
  description : Option String
  partyId : Option ℕ
  party : String
  currency : CurrencyCode
  debit : ℚ
  credit : ℚ
  runningBalance : ℚ
  deriving DecidableEq

def ledgerItem (row : LedgerRow × ℚ) (opening : ℚ) : LedgerItem :=
  let x := row.1.line
  { postingDate := x.entry.postingDate
    journalNo := x.entry.entryNo
    journalId := x.journalId
    lineNo := x.line.lineNo
    voucherType := x.entry.entryType
    sourceDocument := row.1.sourceDocumentNo
    sourceDocumentId := row.1.sourceDocumentNo.bind fun _ => x.entry.sourceDocumentId
    accountId := x.accountId
    accountCode := x.account.accountCode
    accountName := x.account.accountName
    description := (x.line.description.filter (· ≠ "")).or x.entry.description
    partyId := x.line.partyId
    party := row.1.partyName.getD ""
    currency := x.line.currencyCode
    debit := x.debit
    credit := x.credit
    runningBalance := row.2 + opening }

/-- The position of an item in the order of the ledger. -/
def LedgerItem.position (i : LedgerItem) : Date ×ₗ ℕ ×ₗ ℕ := toLex (i.postingDate, toLex (i.journalId, i.lineNo))

structure GeneralLedger where
  items : List LedgerItem
  total : ℕ
  openingBalance : ℚ
  debit : ℚ
  credit : ℚ
  closingBalance : ℚ
  scope : Scope
  deriving DecidableEq

/-- The items of a report, in a page or all of them. -/
def ledgerItems (openings : List (ℕ × ℚ)) (rows : List (LedgerRow × ℚ)) : List LedgerItem :=
  rows.map fun row => ledgerItem row (openingOf openings row.1.accountId)

/-- What a page and an export have in common: the totals of the whole filter, over the rows that `select` takes. -/
def ledgerReport (db : ReportDb) (f : GeneralLedgerFilters) (select : List (LedgerRow × ℚ) → List (LedgerRow × ℚ)) :
    Result GeneralLedger := do
  let scope ← resolveRange db f.toReportFilters
  let openings := ledgerOpeningBalances db f scope
  let totals := generalLedgerTotals db f scope
  let openingBalance := (openings.map Prod.snd).sum
  return {
    items := ledgerItems openings (select (generalLedgerStatement db f scope))
    total := totals.total
    openingBalance := openingBalance
    debit := totals.debit
    credit := totals.credit
    closingBalance := openingBalance + totals.debit - totals.credit
    scope := scope }

/-- `general_ledger`: one page. -/
def generalLedger (db : ReportDb) (f : GeneralLedgerFilters) : Result GeneralLedger :=
  ledgerReport db f (pageOf f.page f.pageSize)

/-- `export_general_ledger`: the stream of all rows. -/
def exportGeneralLedger (db : ReportDb) (f : GeneralLedgerFilters) : Result GeneralLedger := ledgerReport db f id

end LcsSystem
