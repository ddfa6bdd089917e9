import LcsSystem.Finance.Models
import LcsSystem.Lib.Grouping

/-!
# The posted ledger as the reports read it

`resolve_range` (`src/backend/app/modules/reports/ledger_reports.py:70-101`) and the joins of the ledger statements
(`modules/reports/repository.py`). A report reads the journals of the finance schema and the columns of the chart of
accounts that it prints; the keys and the unique constraints it joins along are fields of the database.

Amounts are the base-currency columns, and texts compare by code point.
-/

namespace LcsSystem
open Calendar Relational Checks Grouping

/-- A row of `chart_of_accounts`. -/
structure LedgerAccount where
  accountCode : String
  accountName : String
  accountType : String
  normalBalance : String := "DEBIT"
  isPostable : Bool := true
  status : String := "ACTIVE"
  deriving DecidableEq

structure ReportDb where
  accounts : Table LedgerAccount
  entries : Table JournalEntry
  periods : Table AccountingPeriod
  /-- `display_name` of the parties. -/
  parties : Table String
  /-- `document_no` of the financial documents. -/
  documents : Table String
  /-- `account_id` of the financial accounts. -/
  financialAccounts : Table ℕ
  /-- The foreign key of a line to its account. -/
  known : ∀ e ∈ entries.values, ∀ l ∈ e.lines, (accounts.get? l.accountId).isSome = true
  /-- `uq_journal_entry_lines_no`. -/
  numbered : ∀ e ∈ entries.values, (e.lines.map (·.lineNo)).Nodup
  /-- `uq_financial_accounts_account`. -/
  single : financialAccounts.values.Nodup

/-- A line of a posted journal with its journal and its account. -/
structure LedgerLine where
  journalId : ℕ
  entry : JournalEntry
  line : JournalEntryLine
  account : LedgerAccount
  deriving DecidableEq

namespace LedgerLine

def accountId (r : LedgerLine) : ℕ := r.line.accountId
def postingDate (r : LedgerLine) : Date := r.entry.postingDate
def debit (r : LedgerLine) : ℚ := r.line.baseDebitAmount.val
def credit (r : LedgerLine) : ℚ := r.line.baseCreditAmount.val

/-- Debit minus credit. -/
def net (r : LedgerLine) : ℚ := r.debit - r.credit

end LedgerLine

theorem sum_net (rows : List LedgerLine) :
    (rows.map LedgerLine.debit).sum - (rows.map LedgerLine.credit).sum = (rows.map LedgerLine.net).sum := by
  induction rows with
  | nil => simp
  | cons r rows ih =>
    simp only [List.map_cons, List.sum_cons, ← ih, LedgerLine.net]
    ring

namespace ReportDb

/-- The lines of a journal, joined to their accounts. -/
def linesOf (db : ReportDb) (r : ℕ × JournalEntry) : List LedgerLine :=
  if r.2.status = .posted then
    r.2.lines.filterMap fun l => (db.accounts.get? l.accountId).map fun account => ⟨r.1, r.2, l, account⟩
  else []

/-- `JournalEntryLine` joined to `JournalEntry` and `ChartOfAccount`, where the journal is POSTED. -/
def postedLedger (db : ReportDb) : List LedgerLine := db.entries.rows.flatMap db.linesOf

/-! ## Lines -/

theorem mem_linesOf {db : ReportDb} {r : ℕ × JournalEntry} {x : LedgerLine} :
    x ∈ db.linesOf r ↔ r.2.status = .posted ∧ x.journalId = r.1 ∧ x.entry = r.2 ∧ x.line ∈ r.2.lines ∧
      db.accounts.get? x.accountId = some x.account := by
  unfold linesOf LedgerLine.accountId
  split
  · next h =>
    simp only [List.mem_filterMap, Option.map_eq_some_iff, h, true_and]
    constructor
    · rintro ⟨l, hl, account, haccount, rfl⟩
      exact ⟨rfl, rfl, hl, haccount⟩
    · rintro ⟨hid, hentry, hl, haccount⟩
      exact ⟨x.line, hl, x.account, haccount, by rw [← hid, ← hentry]⟩
  · next h => simp [h]

theorem mem_postedLedger {db : ReportDb} {x : LedgerLine} :
    x ∈ db.postedLedger ↔ db.entries.get? x.journalId = some x.entry ∧ x.entry.status = .posted ∧
      x.line ∈ x.entry.lines ∧ db.accounts.get? x.accountId = some x.account := by
  simp only [postedLedger, List.mem_flatMap, mem_linesOf, Table.get?_eq_some]
  constructor
  · rintro ⟨⟨id, e⟩, hr, hposted, rfl, rfl, hl, haccount⟩
    exact ⟨hr, hposted, hl, haccount⟩
  · rintro ⟨hr, hposted, hl, haccount⟩
    exact ⟨_, hr, hposted, rfl, rfl, hl, haccount⟩

theorem account_of_id {db : ReportDb} {x : LedgerLine} {id : ℕ} {account : LedgerAccount} (hx : x ∈ db.postedLedger)
    (hid : x.accountId = id) (haccount : db.accounts.get? id = some account) : x.account = account := by
  have hown := (mem_postedLedger.1 hx).2.2.2
  rw [hid, haccount] at hown
  exact (Option.some.inj hown).symm

/-- No posted line is lost by the join to its account. -/
theorem linesOf_map_line {db : ReportDb} {r : ℕ × JournalEntry} (hr : r ∈ db.entries.rows)
    (hposted : r.2.status = .posted) : (db.linesOf r).map (·.line) = r.2.lines := by
  have hknown := db.known r.2 (List.mem_map_of_mem hr)
  rw [linesOf, if_pos hposted]
  generalize r.2.lines = lines at hknown
  induction lines with
  | nil => rfl
  | cons l ls ih =>
    obtain ⟨account, haccount⟩ := Option.isSome_iff_exists.1 (hknown l List.mem_cons_self)
    rw [List.filterMap_cons_some (by rw [haccount]; rfl), List.map_cons,
      ih fun l' hl' => hknown l' (List.mem_cons_of_mem _ hl')]

/-- The accounts of the chart have all lines. -/
theorem accountId_mem {db : ReportDb} {x : LedgerLine} (hx : x ∈ db.postedLedger) :
    x.accountId ∈ db.accounts.rows.map Prod.fst :=
  List.mem_map.2 ⟨_, Table.get?_eq_some.1 (mem_postedLedger.1 hx).2.2.2, rfl⟩

end ReportDb

/-! ## The date range -/

structure ReportFilters where
  fromDate : Option Date := none
  toDate : Option Date := none
  fiscalYear : Option ℕ := none
  page : ℕ := 1
  pageSize : ℕ := 50
  page_pos : 1 ≤ page := by decide
  pageSize_pos : 1 ≤ pageSize := by decide

/-- The range a report runs over. -/
structure Scope where
  fromDate : Option Date
  toDate : Option Date
  deriving DecidableEq

def resolveRange (db : ReportDb) (filters : ReportFilters) : Result Scope := do
  check (∀ fromDate ∈ filters.fromDate, ∀ toDate ∈ filters.toDate, fromDate ≤ toDate)
    (.invalid "The report date range is invalid." [("toDate", "The to date must be on or after the from date.")])
  match filters.fiscalYear with
  | none => return ⟨filters.fromDate, filters.toDate⟩
  | some year =>
    let periods := db.periods.values.filter fun p => p.periodYear = year
    let (first, last) ← require
      ((periods.map (·.startDate)).min?.bind fun first => (periods.map (·.endDate)).max?.map fun last => (first, last))
      (.invalid "The requested fiscal year has no accounting periods."
        [("fiscalYear", "No accounting periods are defined for " ++ toString year ++ ".")])
    return ⟨some ((filters.fromDate.map (max · first)).getD first), some ((filters.toDate.map (min · last)).getD last)⟩

/-- `JournalEntry.posting_date < from_date`, false without a date. -/
def Scope.isOpening (scope : Scope) (d : Date) : Bool := scope.fromDate.any fun fromDate => d < fromDate

/-- Not after the last day. -/
def Scope.isClosed (scope : Scope) (d : Date) : Bool := scope.toDate.all fun toDate => d ≤ toDate

/-! ## A sale -/

theorem scaled_saleAmount : DecimalArith.Scaled 4 100 := by decide +kernel
theorem saleAmount_bounded : |(100 : ℚ)| < 10 ^ (19 - 4) := by norm_num
theorem usd_isCurrencyCode : isCurrencyCode "USD" = true := by decide
theorem scaled_saleRate : DecimalArith.Scaled 8 1 := by decide +kernel
theorem saleRate_bounded : |(1 : ℚ)| < 10 ^ (19 - 8) := by norm_num

def saleAmount : Money := ⟨100, scaled_saleAmount, saleAmount_bounded⟩

def saleLine (lineNo accountId : ℕ) (debit credit : Money) : JournalEntryLine where
  lineNo := lineNo
  accountId := accountId
  partyId := none
  serviceOrderId := none
  financialDocumentId := none
  description := none
  debitAmount := debit
  creditAmount := credit
  currencyCode := ⟨"USD", usd_isCurrencyCode⟩
  exchangeRate := ⟨1, scaled_saleRate, saleRate_bounded⟩
  baseDebitAmount := debit
  baseCreditAmount := credit

/-- A day that the calendar has. -/
def dayOf (year month day : ℕ) (h : 1 ≤ month ∧ month ≤ 12 ∧ 1 ≤ day ∧ day ≤ daysInMonth year month) : Date :=
  ⟨year, month, day, h.1, h.2.1, h.2.2.1, h.2.2.2⟩

/-- The fifth of October 2026, the last day of that month, and the day after it. -/
def saleDay : Date := dayOf 2026 10 5 (by decide)
def lastDay : Date := dayOf 2026 10 31 (by decide)
def nextDay : Date := dayOf 2026 11 1 (by decide)

/-- A receivable of 100 against revenue. -/
def saleEntry : JournalEntry where
  entryNo := "JV-000001"
  entryType := "MANUAL"
  entryDate := saleDay
  postingDate := saleDay
  accountingPeriodId := none
  status := .posted
  description := none
  sourceDocumentId := none
  postingRuleId := none
  reversalOfJournalEntryId := none
  createdByUserId := none
  postedByUserId := none
  debitTotal := saleAmount
  creditTotal := saleAmount
  lines := [saleLine 1 1 saleAmount 0, saleLine 2 2 0 saleAmount]

def saleDb : ReportDb where
  accounts := (Table.empty.insert { accountCode := "1100", accountName := "Receivables", accountType := "ASSET" }).insert
    { accountCode := "4010", accountName := "Freight revenue", accountType := "REVENUE", normalBalance := "CREDIT" }
  entries := Table.empty.insert saleEntry
  periods := Table.empty
  parties := Table.empty
  documents := Table.empty
  financialAccounts := Table.empty
  known := by decide
  numbered := by decide
  single := by decide

end LcsSystem
