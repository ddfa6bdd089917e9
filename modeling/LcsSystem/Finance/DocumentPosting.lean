import LcsSystem.Finance.Allocations
import LcsSystem.Finance.Documents
import LcsSystem.Finance.JournalTables
import LcsSystem.Finance.Posting

/-!
# Posting and reversing documents

`post_document` and `reverse_document` (`src/backend/app/modules/finance/service.py:1172-1408`).
Both write a journal entry as a draft, add its lines, and only then set it POSTED: the line trigger
refuses lines of a posted entry.
-/

namespace LcsSystem
open Calendar Relational DecimalArith Checks

/-! ## Posting -/

/-- `document.description or document.document_no`. -/
def Document.label (d : Document) : String :=
  match d.description with
  | some text => if text = "" then d.documentNo else text
  | none => d.documentNo

/-- The stored lines as the posting engine reads them. -/
def postingLines (d : Document) : List DocumentLineInput :=
  d.lines.map fun l =>
    { description := if l.description = "" then d.label else l.description
      amount := l.lineAmount.val
      tax := l.taxAmount.val
      feeTypeId := l.feeTypeId
      accountId := l.accountId }

/-- A draft line as a journal row: each side converted and rounded by its own column. -/
def journalLine (documentId : ℕ) (d : Document) (lineNo : ℕ) (l : DraftLine) : Result JournalEntryLine := do
  let rate := rateOrOne d.exchangeRate.val
  let debitAmount ← storeMoney (if l.debit then l.amount else 0)
  let creditAmount ← storeMoney (if l.debit then 0 else l.amount)
  let exchangeRate ← store 19 8 rate
  let baseDebitAmount ← storeMoney (if l.debit then mul l.amount rate else 0)
  let baseCreditAmount ← storeMoney (if l.debit then 0 else mul l.amount rate)
  return {
    lineNo
    accountId := l.account.id
    partyId := d.partyId
    serviceOrderId := d.serviceOrderId
    financialDocumentId := some documentId
    description := some l.description
    debitAmount, creditAmount
    currencyCode := d.currencyCode
    exchangeRate, baseDebitAmount, baseCreditAmount }

def journalLines (documentId : ℕ) (d : Document) : ℕ → List DraftLine → Result (List JournalEntryLine)
  | _, [] => .ok []
  | lineNo, l :: ls => do
    let row ← journalLine documentId d lineNo l
    let rows ← journalLines documentId d (lineNo + 1) ls
    return row :: rows

/-- The entry both writers insert: a draft without lines. -/
def automaticEntry (env : Env) (entryNo entryType : String) (date : Date) (periodId : ℕ) (description : String)
    (documentId : ℕ) (ruleId reversalOf : Option ℕ) : JournalEntry where
  entryNo := entryNo
  entryType := entryType
  entryDate := date
  postingDate := date
  accountingPeriodId := some periodId
  status := .draft
  description := some description
  sourceDocumentId := some documentId
  postingRuleId := ruleId
  reversalOfJournalEntryId := reversalOf
  createdByUserId := env.userId
  postedByUserId := env.userId
  debitTotal := 0
  creditTotal := 0
  lines := []

/-- The last write of an entry: its totals, and POSTED. -/
def promote (debitTotal creditTotal : Money) (e : JournalEntry) : JournalEntry :=
  { e with debitTotal := debitTotal, creditTotal := creditTotal, status := .posted }

/-- Insert the entry as a draft, attach its lines, promote it. -/
def writeEntry (db : Db) (e : JournalEntry) (lines : List JournalEntryLine) (debitTotal creditTotal : ℚ) :
    Result (Db × ℕ) := do
  let (db, entryId) ← insertEntry db e
  let db ← insertLines db entryId lines
  let debitTotal ← storeMoney debitTotal
  let creditTotal ← storeMoney creditTotal
  let db ← updateEntry db entryId (promote debitTotal creditTotal)
  return (db, entryId)

def periodClosed : Error := .conflict "PERIOD_CLOSED" "The accounting period is closed." []

/-- The writes of a posting, from the locked document on. -/
def writePosting (env : Env) (db : Db) (documentId : ℕ) (d : Document) : Result Db := do
  check (∀ posting ∈ db.postings.values, posting.financialDocumentId ≠ documentId)
    (.conflict "DUPLICATE_POSTING" "This document has already been posted." [])
  let postingDate := d.postingDate.getD d.documentDate
  let (periods, periodId, period) ← resolvePeriod db.periods postingDate
  check (period.status ≠ .closed) periodClosed
  let draft ← build db d.documentType d.amounts.total.val d.label (postingLines d)
  check (2 ≤ draft.lines.length) (.invalid "A journal needs at least two lines."
    [("lines", "Add the document lines before posting.")])
  let (sequences, entryNo) := allocateNumber env db.sequences "JOURNAL"
  let baseAmounts ← d.amounts.toBaseRow (rateOrOne d.exchangeRate.val) (precisionOf db d.currencyCode)
  let lines ← journalLines documentId d 1 draft.lines
  draft.assertBalanced
  let (db, entryId) ← writeEntry { db with periods := periods, sequences := sequences }
    (automaticEntry env entryNo "AUTOMATIC" postingDate periodId ("Posting of " ++ d.documentNo) documentId
      draft.ruleId none)
    lines draft.debitTotal draft.creditTotal
  return { db with
    postings := db.postings.insert ⟨documentId, entryId⟩
    documents := db.documents.modify documentId fun d =>
      { d with
        status := .posted
        postingDate := some postingDate
        baseCurrencyCode := some (d.baseCurrencyCode.getD db.defaultCurrency)
        baseAmounts := baseAmounts
        postedByUserId := env.userId } }

def documentNotFound : Error := .notFound "Financial document not found."

/-- `post_document`: a posted document is returned as it is. -/
def postDocument (env : Env) (db : Db) (documentId : ℕ) : Result Db := do
  let d ← require (db.documents.get? documentId) documentNotFound
  match d.status with
  | .posted => return db
  | .reversed => .error (.invalidState ("Cannot post a document in status " ++ d.status.code ++ "."))
  | .draft => do
    let db' ← writePosting env db documentId d
    commit db db'

/-! ## Reversing -/

/-- `_journal_lines` mirrored: the sides swapped in both currencies. -/
def JournalEntryLine.mirror (documentId lineNo : ℕ) (l : JournalEntryLine) : JournalEntryLine :=
  { l with
    lineNo := lineNo
    financialDocumentId := some documentId
    description := some ("Reversal: " ++ l.description.getD "")
    debitAmount := l.creditAmount
    creditAmount := l.debitAmount
    baseDebitAmount := l.baseCreditAmount
    baseCreditAmount := l.baseDebitAmount }

def mirrorLines (documentId : ℕ) (lines : List JournalEntryLine) : List JournalEntryLine :=
  lines.zipIdx.map fun (l, index) => l.mirror documentId (index + 1)

/-- What `reverse_document` requires of the locked row. -/
def checkReversible (d : Document) : Result PUnit := do
  check (d.status ≠ .reversed) (.conflict "DOCUMENT_ALREADY_REVERSED" "This document is already reversed." [])
  check (d.status = .posted) (.invalidState "Only posted documents can be reversed.")

/-- The reversal entry of a document: the mirror of its posting, dated today. -/
def writeReversal (env : Env) (db : Db) (documentId : ℕ) (reason : String) : Result Db := do
  let posting ← require (db.postings.values.find? fun p => p.financialDocumentId == documentId)
    (.notFound "Original posting not found.")
  let original ← require (db.entries.get? posting.journalEntryId)
    (.database "the posting references a journal entry")
  let (periods, periodId, period) ← resolvePeriod db.periods env.today
  check (period.status ≠ .closed) periodClosed
  let (sequences, entryNo) := allocateNumber env db.sequences "JOURNAL"
  let (db, _) ← writeEntry { db with periods := periods, sequences := sequences }
    (automaticEntry env entryNo "REVERSAL" env.today periodId
      ("Reversal of " ++ original.entryNo ++ ": " ++ reason) documentId original.postingRuleId
      (some posting.journalEntryId))
    (mirrorLines documentId original.lines) (creditSum original.lines) (debitSum original.lines)
  return db

/-- `reverse_document`, run at once. -/
def reverseDocument (env : Env) (db : Db) (documentId : ℕ) (reason : String) : Result Db := do
  let d ← require (db.documents.get? documentId) documentNotFound
  checkReversible d
  let db' ← writeReversal env db documentId reason
  let allocations := allocationsOf db' documentId
  let writes ← unwindWrites documentId allocations (readCounterparties db' documentId allocations)
  commit db (writeUnwinding db' documentId allocations writes)

end LcsSystem
