import LcsSystem.Finance.DocumentPosting

/-!
# What posting and reversing write

`postDocument` and `reverseDocument` taken apart once. `PostingWrite` and `ReversalWrite` hold what a
successful request computed; each of them inserts one POSTED entry whose lines are described by
`journalLines` and `mirrorLines`, and touches no other entry.
-/

namespace LcsSystem
open Calendar Relational DecimalArith Checks

/-! ## One entry -/

/-- Insert, attach, promote: the table gains one POSTED entry with the lines. -/
theorem writeEntry_spec {db db' : Db} {e : JournalEntry} {lines : List JournalEntryLine} {debit credit : ℚ} {id : ℕ}
    (h : writeEntry db e lines debit credit = .ok (db', id)) :
    id = db.entries.nextId ∧ ∃ debitTotal creditTotal, storeMoney debit = .ok debitTotal ∧
      storeMoney credit = .ok creditTotal ∧
      db' = { db with
        entries := db.entries.insert (promote debitTotal creditTotal { e with lines := e.lines ++ lines }) } := by
  simp only [writeEntry, insertEntry, insertLines, updateEntry, guardLines, bind_eq_ok, check_eq_ok, pure_eq_ok] at h
  obtain ⟨⟨db₁, i⟩, ⟨_, -, hinsert⟩, db₂, ⟨_, -, rfl⟩, debitTotal, hdebit, creditTotal, hcredit, db₃,
    ⟨_, -, rfl⟩, h⟩ := h
  cases hinsert
  cases h
  exact ⟨rfl, debitTotal, creditTotal, hdebit, hcredit, by simp⟩

/-! ## Posting -/

/-- What a successful `writePosting` computed. -/
structure PostingWrite (env : Env) (db : Db) (documentId : ℕ) (d : Document) where
  periods : Table AccountingPeriod
  periodId : ℕ
  period : AccountingPeriod
  draft : JournalDraft
  baseAmounts : Amounts
  lines : List JournalEntryLine
  debitTotal : Money
  creditTotal : Money
  notPosted : ∀ posting ∈ db.postings.values, posting.financialDocumentId ≠ documentId
  period_ok : resolvePeriod db.periods (d.postingDate.getD d.documentDate) = .ok (periods, periodId, period)
  period_open : period.status ≠ .closed
  build_ok : build db d.documentType d.amounts.total.val d.label (postingLines d) = .ok draft
  base_ok : d.amounts.toBaseRow (rateOrOne d.exchangeRate.val) (precisionOf db d.currencyCode) = .ok baseAmounts
  lines_ok : journalLines documentId d 1 draft.lines = .ok lines
  debit_ok : storeMoney draft.debitTotal = .ok debitTotal
  credit_ok : storeMoney draft.creditTotal = .ok creditTotal

namespace PostingWrite
variable {env : Env} {db : Db} {documentId : ℕ} {d : Document}

/-- The POSTED entry. -/
def entry (w : PostingWrite env db documentId d) : JournalEntry :=
  promote w.debitTotal w.creditTotal
    { automaticEntry env (allocateNumber env db.sequences "JOURNAL").2 "AUTOMATIC" (d.postingDate.getD d.documentDate)
        w.periodId ("Posting of " ++ d.documentNo) documentId w.draft.ruleId none with lines := w.lines }

/-- The document after the posting. -/
def document (w : PostingWrite env db documentId d) (stored : Document) : Document :=
  { stored with
    status := .posted
    postingDate := some (d.postingDate.getD d.documentDate)
    baseCurrencyCode := some (stored.baseCurrencyCode.getD db.defaultCurrency)
    baseAmounts := w.baseAmounts
    postedByUserId := env.userId }

/-- The state after the posting. -/
def after (w : PostingWrite env db documentId d) : Db :=
  { db with
    periods := w.periods
    sequences := (allocateNumber env db.sequences "JOURNAL").1
    entries := db.entries.insert w.entry
    postings := db.postings.insert ⟨documentId, db.entries.nextId⟩
    documents := db.documents.modify documentId w.document }

end PostingWrite

theorem writePosting_spec {env : Env} {db db' : Db} {documentId : ℕ} {d : Document}
    (h : writePosting env db documentId d = .ok db') : ∃ w : PostingWrite env db documentId d, db' = w.after := by
  simp only [writePosting, bind_eq_ok, check_eq_ok, JournalDraft.assertBalanced] at h
  obtain ⟨_, hnot, ⟨periods, periodId, period⟩, hperiod, _, hopen, draft, hdraft, _, -, baseAmounts, hbase, lines,
    hlines, _, -, ⟨db₁, entryId⟩, hentry, h⟩ := h
  obtain ⟨rfl, debitTotal, creditTotal, hdebit, hcredit, rfl⟩ := writeEntry_spec hentry
  cases h
  exact ⟨⟨periods, periodId, period, draft, baseAmounts, lines, debitTotal, creditTotal, hnot, hperiod, hopen, hdraft,
    hbase, hlines, hdebit, hcredit⟩, rfl⟩

/-- **Posting.** A posted document answers without a write; a draft is written by one `PostingWrite`,
which the commit accepted. -/
theorem postDocument_spec {env : Env} {db db' : Db} {documentId : ℕ} (h : postDocument env db documentId = .ok db') :
    ∃ d, db.documents.get? documentId = some d ∧
      (d.status = .posted ∧ db' = db ∨
        d.status = .draft ∧ ∃ w : PostingWrite env db documentId d, db' = w.after ∧ commit db w.after = .ok db') := by
  simp only [postDocument, bind_eq_ok, require_eq_ok] at h
  obtain ⟨d, hd, h⟩ := h
  refine ⟨d, hd, ?_⟩
  cases hs : d.status with
  | posted =>
    simp only [hs, pure_eq_ok] at h
    exact .inl ⟨rfl, h.symm⟩
  | reversed => simp [hs] at h
  | draft =>
    simp only [hs, bind_eq_ok] at h
    obtain ⟨db₁, hwrite, hcommit⟩ := h
    obtain ⟨w, rfl⟩ := writePosting_spec hwrite
    obtain ⟨rfl, -⟩ := commit_spec hcommit
    exact .inr ⟨rfl, w, rfl, hcommit⟩

/-! ## The posted lines -/

/-- A journal row of a draft line: the identifying columns of the document, the amounts rounded. -/
structure JournalLineOf (documentId : ℕ) (d : Document) (l : DraftLine) (row : JournalEntryLine) : Prop where
  account : row.accountId = l.account.id
  party : row.partyId = d.partyId
  order : row.serviceOrderId = d.serviceOrderId
  document : row.financialDocumentId = some documentId
  debit : row.debitAmount.val = roundHalfUp 4 (if l.debit then l.amount else 0)
  credit : row.creditAmount.val = roundHalfUp 4 (if l.debit then 0 else l.amount)
  baseDebit : row.baseDebitAmount.val =
    roundHalfUp 4 (if l.debit then mul l.amount (rateOrOne d.exchangeRate.val) else 0)
  baseCredit : row.baseCreditAmount.val =
    roundHalfUp 4 (if l.debit then 0 else mul l.amount (rateOrOne d.exchangeRate.val))

theorem journalLine_spec {documentId : ℕ} {d : Document} {lineNo : ℕ} {l : DraftLine} {row : JournalEntryLine}
    (h : journalLine documentId d lineNo l = .ok row) : JournalLineOf documentId d l row := by
  simp only [journalLine, bind_eq_ok, pure_eq_ok] at h
  obtain ⟨_, hdebit, _, hcredit, _, -, _, hbaseDebit, _, hbaseCredit, rfl⟩ := h
  exact ⟨rfl, rfl, rfl, rfl, val_of_store hdebit, val_of_store hcredit, val_of_store hbaseDebit,
    val_of_store hbaseCredit⟩

theorem journalLines_spec {documentId : ℕ} {d : Document} {lineNo : ℕ} {ls : List DraftLine}
    {rows : List JournalEntryLine} (h : journalLines documentId d lineNo ls = .ok rows) :
    List.Forall₂ (JournalLineOf documentId d) ls rows := by
  induction ls generalizing lineNo rows with
  | nil => cases h; exact .nil
  | cons l ls ih =>
    simp only [journalLines, bind_eq_ok, pure_eq_ok] at h
    obtain ⟨row, hrow, rows, hrows, rfl⟩ := h
    exact .cons (journalLine_spec hrow) (ih hrows)

/-! ## Reversing -/

/-- What a successful `writeReversal` computed. -/
structure ReversalWrite (env : Env) (db : Db) (documentId : ℕ) (reason : String) where
  posting : FinancialDocumentPosting
  original : JournalEntry
  periods : Table AccountingPeriod
  periodId : ℕ
  period : AccountingPeriod
  debitTotal : Money
  creditTotal : Money
  posting_ok : db.postings.values.find? (fun p => p.financialDocumentId == documentId) = some posting
  original_ok : db.entries.get? posting.journalEntryId = some original
  period_ok : resolvePeriod db.periods env.today = .ok (periods, periodId, period)
  period_open : period.status ≠ .closed

namespace ReversalWrite
variable {env : Env} {db : Db} {documentId : ℕ} {reason : String}

/-- The POSTED mirror entry. -/
def entry (w : ReversalWrite env db documentId reason) : JournalEntry :=
  promote w.debitTotal w.creditTotal
    { automaticEntry env (allocateNumber env db.sequences "JOURNAL").2 "REVERSAL" env.today w.periodId
        ("Reversal of " ++ w.original.entryNo ++ ": " ++ reason) documentId w.original.postingRuleId
        (some w.posting.journalEntryId) with lines := mirrorLines documentId w.original.lines }

/-- The state with the mirror entry, before the allocations are undone. -/
def after (w : ReversalWrite env db documentId reason) : Db :=
  { db with
    periods := w.periods
    sequences := (allocateNumber env db.sequences "JOURNAL").1
    entries := db.entries.insert w.entry }

end ReversalWrite

theorem writeReversal_spec {env : Env} {db db' : Db} {documentId : ℕ} {reason : String}
    (h : writeReversal env db documentId reason = .ok db') :
    ∃ w : ReversalWrite env db documentId reason, db' = w.after := by
  simp only [writeReversal, bind_eq_ok, require_eq_ok, check_eq_ok, pure_eq_ok] at h
  obtain ⟨posting, hposting, original, horiginal, ⟨periods, periodId, period⟩, hperiod, _, hopen, ⟨db₁, entryId⟩,
    hentry, rfl⟩ := h
  obtain ⟨-, debitTotal, creditTotal, -, -, rfl⟩ := writeEntry_spec hentry
  exact ⟨⟨posting, original, periods, periodId, period, debitTotal, creditTotal, hposting, horiginal, hperiod, hopen⟩,
    rfl⟩

theorem checkReversible_eq_ok {d : Document} : checkReversible d = .ok ⟨⟩ ↔ d.status = .posted := by
  simp only [checkReversible, bind_eq_ok, check_eq_ok]
  constructor
  · rintro ⟨_, -, h⟩
    exact h
  · intro h
    exact ⟨⟨⟩, by simp [h], h⟩

/-- **Reversing.** Only a POSTED document is reversed: the mirror of its posting is added, its
allocations are undone, and the commit accepted the result. -/
theorem reverseDocument_spec {env : Env} {db db' : Db} {documentId : ℕ} {reason : String}
    (h : reverseDocument env db documentId reason = .ok db') :
    ∃ d, db.documents.get? documentId = some d ∧ d.status = .posted ∧
      ∃ (w : ReversalWrite env db documentId reason) (writes : List (ℕ × Money)),
        unwindWrites documentId (allocationsOf db documentId)
          (readCounterparties db documentId (allocationsOf db documentId)) = .ok writes ∧
        db' = writeUnwinding w.after documentId (allocationsOf db documentId) writes ∧ commit db db' = .ok db' := by
  simp only [reverseDocument, bind_eq_ok, require_eq_ok] at h
  obtain ⟨d, hd, _, hstatus, db₁, hwrite, writes, hwrites, hcommit⟩ := h
  obtain ⟨w, rfl⟩ := writeReversal_spec hwrite
  obtain ⟨rfl, -⟩ := commit_spec hcommit
  exact ⟨d, hd, checkReversible_eq_ok.1 hstatus, w, writes, hwrites, rfl, hcommit⟩

end LcsSystem
