import LcsSystem.Finance.DocumentPosting

/-!
# Manual journals

`save_journal`, `post_journal` and `delete_journals`
(`src/backend/app/modules/finance/service.py:1898-2050`, `:2419-2428`). An update rewrites the
header dates, the period and every line from the body.
-/

namespace LcsSystem
open Calendar Relational DecimalArith Checks

/-! ## Payloads -/

structure JournalLinePayload where
  accountId : Field ℕ
  accountCode : Field String
  debitAmount : Field ℚ
  creditAmount : Field ℚ
  exchangeRate : Field ℚ
  currency : Field String
  description : Field String
  party : Field ℕ
  serviceOrder : Field ℕ

structure JournalPayload where
  /-- Absent when there is no `id` or it is null; malformed when it is no number. -/
  id : Field ℕ
  entryNo : Field String
  entryType : Field String
  entryDate : Field Date
  postingDate : Field Date
  description : Field String
  lines : Field (List JournalLinePayload)

/-- A body `{}`, and a line that debits or credits an account. -/
def JournalPayload.empty : JournalPayload where
  id := .absent
  entryNo := .absent
  entryType := .absent
  entryDate := .absent
  postingDate := .absent
  description := .absent
  lines := .absent

def JournalLinePayload.ofAmounts (accountCode : String) (debit credit : ℚ) : JournalLinePayload where
  accountId := .absent
  accountCode := .value accountCode
  debitAmount := .value debit
  creditAmount := .value credit
  exchangeRate := .absent
  currency := .absent
  description := .absent
  party := .absent
  serviceOrder := .absent

/-- `JOURNAL_LINE_SCHEMA`. -/
def journalLineSchema (line : JournalLinePayload) : List FieldErrorItem :=
  checkReference "accountId" line.accountId ++
  TextSpec.check { key := "accountCode", maxLength := some 32 } line.accountCode ++
  DecimalSpec.check { key := "debitAmount", decimalPlaces := some 4 } line.debitAmount ++
  DecimalSpec.check { key := "creditAmount", decimalPlaces := some 4 } line.creditAmount ++
  DecimalSpec.check { key := "exchangeRate", minimum := some zeroBound, decimalPlaces := some 8 } line.exchangeRate ++
  TextSpec.check { key := "currency", minLength := some 3, maxLength := some 3 } line.currency ++
  TextSpec.check { key := "description", maxLength := some 1000 } line.description ++
  checkReference "party" line.party ++
  checkReference "serviceOrder" line.serviceOrder

/-- `JOURNAL_WRITE_SCHEMA`. -/
def journalWriteSchema (p : JournalPayload) : List FieldErrorItem :=
  TextSpec.check { key := "entryNo", maxLength := some 50 } p.entryNo ++
  TextSpec.check { key := "entryType", maxLength := some 64 } p.entryType ++
  checkDate "entryDate" p.entryDate ++
  checkDate "postingDate" p.postingDate ++
  TextSpec.check { key := "description", maxLength := some 10000 } p.description

/-! ## Lines -/

/-- A line as the loop of `save_journal` reads it. -/
structure JournalLineDraft where
  accountId : ℕ
  partyId : Option ℕ
  serviceOrderId : Option ℕ
  description : Option String
  debitAmount : ℚ
  creditAmount : ℚ
  currencyCode : CurrencyCode
  exchangeRate : ℚ

/-- The account of a line: its id, else its code. -/
def journalAccount (db : Db) (line : JournalLinePayload) : Option Account :=
  match line.accountId.get?.bind (accountById db) with
  | some a => some a
  | none => line.accountCode.text.get?.bind (accountByCode db)

def journalDraftOf (db : Db) (index : ℕ) (line : JournalLinePayload) : Result JournalLineDraft := do
  let pre := "lines." ++ toString index
  let line1 := "Line " ++ toString (index + 1)
  let account ← require (journalAccount db line) (.invalid "Every journal line must reference a valid account."
    [("lines", line1 ++ " has an unknown account.")])
  let account ← validatePostable (some account) ("line " ++ toString (index + 1)) none
  let debitAmount ← parseDecimal line.debitAmount (pre ++ ".debit_amount") 0 4
  let creditAmount ← parseDecimal line.creditAmount (pre ++ ".credit_amount") 0 4
  let exchangeRate ← parseDecimal line.exchangeRate (pre ++ ".exchangeRate") 1 8
  check (0 ≤ debitAmount ∧ 0 ≤ creditAmount) (.invalid "Journal amounts cannot be negative."
    [("lines", line1 ++ " contains a negative amount.")])
  check (decide (0 < debitAmount) ≠ decide (0 < creditAmount))
    (.invalid "Each journal line must contain either a debit or a credit."
      [("lines", line1 ++ " must have exactly one positive side.")])
  check (0 < exchangeRate) (.invalid "Journal exchange rate must be greater than zero."
    [("lines", line1 ++ " has an invalid exchange rate.")])
  let currencyCode ← assertCurrencyCode db (line.currency.text.get?.getD db.defaultCurrency.code) "currency"
  return {
    accountId := account.id
    partyId := line.party.get?
    serviceOrderId := line.serviceOrder.get?
    description := line.description.text.get?
    debitAmount, creditAmount, currencyCode, exchangeRate }

def journalDraftsFrom (db : Db) : ℕ → List JournalLinePayload → Result (List JournalLineDraft)
  | _, [] => .ok []
  | index, line :: lines => do
    let draft ← journalDraftOf db index line
    let drafts ← journalDraftsFrom db (index + 1) lines
    return draft :: drafts

def JournalLineDraft.row (lineNo : ℕ) (l : JournalLineDraft) : Result JournalEntryLine := do
  let debitAmount ← storeMoney l.debitAmount
  let creditAmount ← storeMoney l.creditAmount
  let exchangeRate ← store 19 8 l.exchangeRate
  let baseDebitAmount ← storeMoney (mul l.debitAmount l.exchangeRate)
  let baseCreditAmount ← storeMoney (mul l.creditAmount l.exchangeRate)
  return {
    lineNo
    accountId := l.accountId, partyId := l.partyId, serviceOrderId := l.serviceOrderId
    financialDocumentId := none
    description := l.description
    debitAmount, creditAmount
    currencyCode := l.currencyCode
    exchangeRate, baseDebitAmount, baseCreditAmount }

def journalRowsFrom : ℕ → List JournalLineDraft → Result (List JournalEntryLine)
  | _, [] => .ok []
  | lineNo, l :: ls => do
    let row ← l.row lineNo
    let rows ← journalRowsFrom (lineNo + 1) ls
    return row :: rows

/-! ## save_journal -/

def storedEntry (db : Db) (p : JournalPayload) : Option (ℕ × JournalEntry) :=
  p.id.get?.bind fun id => (db.entries.get? id).map fun e => (id, e)

def JournalPayload.newEntryDate (env : Env) (p : JournalPayload) : Date := p.entryDate.get?.getD env.today

def JournalPayload.newPostingDate (env : Env) (p : JournalPayload) : Date :=
  p.postingDate.get?.getD (p.newEntryDate env)

/-- The header a new journal is inserted with. -/
def newJournal (env : Env) (p : JournalPayload) (number : String) (periodId : ℕ) : JournalEntry where
  entryNo := number
  entryType := upper (p.entryType.text.get?.getD "MANUAL")
  entryDate := p.newEntryDate env
  postingDate := p.newPostingDate env
  accountingPeriodId := some periodId
  status := .draft
  description := p.description.text.get?
  sourceDocumentId := none
  postingRuleId := none
  reversalOfJournalEntryId := none
  createdByUserId := env.userId
  postedByUserId := none
  debitTotal := 0
  creditTotal := 0
  lines := []

/-- The header columns an update writes. -/
def editJournal (env : Env) (p : JournalPayload) (periodId : ℕ) (e : JournalEntry) : JournalEntry :=
  { e with
    entryDate := p.newEntryDate env
    postingDate := p.newPostingDate env
    accountingPeriodId := some periodId
    description := p.description.text.get?.or e.description }

def setTotals (debitTotal creditTotal : Money) (e : JournalEntry) : JournalEntry :=
  { e with debitTotal := debitTotal, creditTotal := creditTotal }

/-- The number typed in the form, else the next one of the sequence. -/
def journalNumber (env : Env) (sequences : Table DocumentSequence) (p : JournalPayload) :
    Table DocumentSequence × String :=
  match p.entryNo.text.get? with
  | some number => (sequences, number)
  | none => allocateNumber env sequences "JOURNAL"

/-- Insert the header, or rewrite the stored one. -/
def writeHeader (env : Env) (db : Db) (p : JournalPayload) (periodId : ℕ) : Result (Db × ℕ) :=
  match storedEntry db p with
  | none =>
    let numbered := journalNumber env db.sequences p
    insertEntry { db with sequences := numbered.1 } (newJournal env p numbered.2 periodId)
  | some (id, e) => do
    check (e.status ≠ .posted) (.invalidState "Posted journals cannot be edited; reverse instead.")
    let db ← updateEntry db id (editJournal env p periodId)
    return (db, id)

def saveJournal (env : Env) (db : Db) (p : JournalPayload) : Result (Db × ℕ) := do
  RecordSchema.validate (journalWriteSchema p)
  let (periods, periodId, _) ← resolvePeriod db.periods (p.newPostingDate env)
  let lines ← rowsOf journalLineSchema p.lines
  let (db₁, id) ← writeHeader env { db with periods := periods } p periodId
  let db₂ ← deleteLines db₁ id
  let drafts ← journalDraftsFrom db 0 lines
  let rows ← journalRowsFrom 1 drafts
  let debitTotal ← storeMoney (drafts.map JournalLineDraft.debitAmount).sum
  let creditTotal ← storeMoney (drafts.map JournalLineDraft.creditAmount).sum
  let db₃ ← insertLines db₂ id rows
  let db₄ ← updateEntry db₃ id (setTotals debitTotal creditTotal)
  let db₅ ← commit db db₄
  return (db₅, id)

/-! ## post_journal -/

/-- One side of the line is positive, the other zero. -/
def oneSided (l : JournalEntryLine) : Prop :=
  0 ≤ l.debitAmount.val ∧ 0 ≤ l.creditAmount.val ∧
    decide (0 < l.debitAmount.val) ≠ decide (0 < l.creditAmount.val)

instance (l : JournalEntryLine) : Decidable (oneSided l) := inferInstanceAs (Decidable (_ ∧ _))

def checkSides : ℕ → List JournalEntryLine → Result PUnit
  | _, [] => .ok ⟨⟩
  | index, l :: ls => do
    check (oneSided l) (.invalid "Every journal line must contain exactly one positive debit or credit."
      [("lines", "Line " ++ toString index ++ " is invalid.")])
    checkSides (index + 1) ls

/-- The checks of `post_journal` on a draft entry. -/
def checkPostable (db : Db) (e : JournalEntry) : Result PUnit := do
  check (2 ≤ e.lines.length) (.invalid "A journal must have at least two lines before posting." [])
  checkSides 1 e.lines
  check (debitSum e.lines = creditSum e.lines ∧ debitSum e.lines ≠ 0)
    (.conflict "JOURNAL_UNBALANCED" "Total debit must equal total credit and be non-zero." [])
  check (baseDebitSum e.lines = baseCreditSum e.lines)
    (.conflict "JOURNAL_UNBALANCED" "Total base-currency debit must equal total base-currency credit." [])
  check (∀ period ∈ e.accountingPeriodId.bind db.periods.get?, period.status ≠ .closed) periodClosed

/-- The row `post_journal` leaves. -/
def postedRow (env : Env) (debitTotal creditTotal : Money) (e : JournalEntry) : JournalEntry :=
  { promote debitTotal creditTotal e with postedByUserId := env.userId }

/-- What `post_journal` flushes. -/
def flushPosting (env : Env) (db : Db) (journalId : ℕ) (e : JournalEntry) : Result Db := do
  let debitTotal ← storeMoney (debitSum e.lines)
  let creditTotal ← storeMoney (creditSum e.lines)
  updateEntry db journalId (postedRow env debitTotal creditTotal)

/-- `post_journal` up to its `COMMIT`. -/
def postJournalBody (env : Env) (db : Db) (journalId : ℕ) : Result Db := do
  let e ← require (db.entries.get? journalId) (.notFound "Journal entry not found.")
  match e.status with
  | .posted => return db
  | .draft => do
    checkPostable db e
    flushPosting env db journalId e

def postJournal (env : Env) (db : Db) (journalId : ℕ) : Result Db := do
  let db' ← postJournalBody env db journalId
  commit db db'

/-! ## delete_journals -/

def deleteAll : List ℕ → Db → Result Db
  | [], db => .ok db
  | id :: ids, db =>
    match db.entries.get? id with
    | none => deleteAll ids db
    | some e => do
      check (e.status ≠ .posted) (.invalidState "Posted journals cannot be deleted; reverse instead.")
      let db ← deleteLines db id
      let db ← deleteEntry db id
      deleteAll ids db

def deleteJournals (db : Db) (ids : List ℕ) : Result Db := do
  let db' ← deleteAll ids db
  commit db db'

end LcsSystem
