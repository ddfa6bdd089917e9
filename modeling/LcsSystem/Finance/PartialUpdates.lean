import LcsSystem.Finance.DocumentConversion
import LcsSystem.Finance.JournalGuards

/-!
# What an update keeps

"A missing key keeps its stored value" is the update contract of `RecordSchema.validate`
(`src/backend/app/core/validation.py:132`). `save_document` and `save_journal` read most columns with the stored
row to fall back on. The lines with their totals, the chosen type and the base currency of a document, and the
lines, dates and period of a journal are rebuilt from the body: `updates_keep_iff` says when they come out as they
were stored.
-/

namespace LcsSystem
open Calendar Relational DecimalArith Checks

/-! ## Documents -/

/-- Of a draft `d` that was saved as `d'`, a column is unchanged while the body has no key of it. -/
structure DocumentPayload.KeepsAbsent (p : DocumentPayload) (d d' : Document) : Prop where
  documentNo : p.documentNo = .absent → p.debitNoteNo = .absent → d'.documentNo = d.documentNo
  documentType : p.documentType = .absent → d'.documentType = d.documentType
  documentTypeId : p.documentTypeId = .absent → d'.documentTypeId = d.documentTypeId
  documentDate : p.date = .absent → p.documentDate = .absent → d'.documentDate = d.documentDate
  postingDate : p.postingDate = .absent → d'.postingDate = d.postingDate
  dueDate : p.dueDate = .absent → d'.dueDate = d.dueDate
  valueDate : p.valueDate = .absent → d'.valueDate = d.valueDate
  currencyCode : p.currency = .absent → d'.currencyCode = d.currencyCode
  exchangeRate : p.exchangeRate = .absent → d'.exchangeRate = d.exchangeRate
  baseCurrencyCode : p.baseCurrency = .absent → d'.baseCurrencyCode = d.baseCurrencyCode
  partyId : p.partyId = .absent → d'.partyId = d.partyId
  serviceOrderId : p.serviceOrderId = .absent → d'.serviceOrderId = d.serviceOrderId
  referenceNumber : p.referenceNumber = .absent → p.referenceNo = .absent → d'.referenceNumber = d.referenceNumber
  description : p.remark = .absent → p.description = .absent → d'.description = d.description
  paymentMethodCode : p.paymentMethod = .absent → d'.paymentMethodCode = d.paymentMethodCode
  financialAccountId : p.financialAccountId = .absent → d'.financialAccountId = d.financialAccountId
  lines : p.lines = .absent → d'.lines = d.lines ∧ d'.amounts = d.amounts ∧ d'.baseAmounts = d.baseAmounts
  /-- No key writes these. -/
  unwritten : d'.status = d.status ∧ d'.paidAmount = d.paidAmount ∧
    d'.createdByUserId = d.createdByUserId ∧ d'.postedByUserId = d.postedByUserId

/-- The master record that the body's type code names. -/
def DocumentPayload.namedType (db : Db) (p : DocumentPayload) : Option ℕ :=
  p.documentType.text.get?.bind fun text =>
    (db.documentTypes.rows.find? fun r => r.2.code == upper text && !r.2.deleted).map Prod.fst

def DocumentPayload.sentCurrency (p : DocumentPayload) : Option CurrencyCode :=
  p.currency.text.get?.bind CurrencyCode.ofText?

/-- What the update of draft `d` rebuilds without its key comes out as `d` has it. -/
structure DocumentPayload.RebuildsStored (db : Db) (p : DocumentPayload) (d : Document) : Prop where
  lines : p.lines = .absent → d.lines = [] ∧ d.amounts = 0 ∧ d.baseAmounts = 0
  documentTypeId : p.documentTypeId = .absent → p.namedType db = d.documentTypeId
  exchangeRate : p.exchangeRate = .absent → p.sentCurrency = some db.defaultCurrency → d.exchangeRate.val = 1
  baseCurrencyCode : p.baseCurrency = .absent → some db.defaultCurrency = d.baseCurrencyCode

namespace DocumentSave
variable {env : Env} {db db' : Db} {p : DocumentPayload} {id : ℕ} {d header : Document}

/-- Without lines, the rows and the eight amounts of a save are empty. -/
theorem of_lines_absent (s : DocumentSave env db p) (h : p.lines = .absent) :
    s.rows = [] ∧ s.amounts = 0 ∧ s.baseAmounts = 0 := by
  have hlines : s.lines = [] := by simpa [h, rowsOf, eq_comm] using s.lines_ok
  obtain ⟨t⟩ := documentTotals_spec s.totals_ok
  have hdrafts : t.drafts = [] := by simpa [hlines, draftLinesFrom, eq_comm] using t.drafts_ok
  have hzero : ExactAmounts.ofLines t.drafts = ⟨0, 0, 0⟩ := by simp [hdrafts, ExactAmounts.ofLines]
  have hrows : s.rows = [] := by simpa [hdrafts, rowsFrom, eq_comm] using t.rows_ok
  have hamounts : ⟨0, 0, 0, 0⟩ = s.amounts := by
    simpa [hzero, ExactAmounts.toRow, ExactAmounts.total] using t.amounts_ok
  have hbase : ⟨0, 0, 0, 0⟩ = s.baseAmounts := by
    simpa [hzero, ExactAmounts.toBaseRow, ExactAmounts.total] using t.base_ok
  exact ⟨hrows, hamounts.symm, hbase.symm⟩

/-- The type a save stores when the body does not choose a record. -/
theorem typeId_of_absent (s : DocumentSave env db p) (h : p.documentTypeId = .absent) :
    s.typeId = p.namedType db := by
  have htype := s.type_ok
  simp only [resolveDocumentType, h, Field.get?_absent, bind_eq_ok, pure_eq_ok] at htype
  obtain ⟨chosen, hchosen, htype⟩ := htype
  have hid : s.typeId = chosen.map Prod.fst := by
    cases chosen with
    | none =>
      simp only [pure_eq_ok, Prod.mk.injEq] at htype
      exact htype.1.symm
    | some r =>
      simp only [bind_eq_ok, check_eq_ok, pure_eq_ok, Prod.mk.injEq] at htype
      obtain ⟨_, -, hsome, -⟩ := htype
      exact hsome.symm
  rw [hid, ← hchosen, DocumentPayload.namedType]
  cases hsent : p.documentType.text.get? <;> simp

/-- An update that sends no rate stores 1 when the body names the base currency, else the rate it finds. -/
theorem Updated.exchangeRate_of_absent {s : DocumentSave env db p} (h : s.Updated db' id d header)
    (hrate : p.exchangeRate = .absent) :
    header.exchangeRate.val = if p.sentCurrency = some db.defaultCurrency then 1 else d.exchangeRate.val := by
  obtain ⟨hstored, hheader, -⟩ := h
  simp only [updatedHeader, bind_eq_ok, check_eq_ok, pure_eq_ok] at hheader
  obtain ⟨_, -, _, -, rfl⟩ := hheader
  cases hsent : p.currency.text.get? with
  | none => simp [DocumentPayload.sentCurrency, DocumentPayload.sendsConversion, hsent, hrate]
  | some text =>
    have hinputs := s.currency_ok
    simp only [DocumentPayload.currencyText, hsent, hrate, hstored, Option.getD_some, Option.map_some,
      Field.get?_absent] at hinputs
    obtain ⟨htext, -, -, hcase⟩ := documentCurrencyInputs_spec hinputs
    simp only [DocumentPayload.sentCurrency, DocumentPayload.sendsConversion, hsent, Option.bind_some, htext,
      Option.some.injEq, Option.isSome_some, Bool.true_or, if_true, s.storedRate_val]
    rcases hcase with ⟨heq, hone⟩ | ⟨hne, q, hq, hgiven | ⟨hgiven, -⟩⟩
    · rw [if_pos heq, hone]
    · obtain rfl : d.exchangeRate.val = q := by simpa using hgiven
      obtain ⟨-, -, -, hround⟩ := normalizeRate_eq_ok.1 hq
      rw [if_neg hne, hround, Numeric.roundHalfUp_val]
    · simp at hgiven

/-- An update that names no currency keeps the stored one. -/
theorem Updated.currencyCode_of_absent {s : DocumentSave env db p} (h : s.Updated db' id d header)
    (hcurrency : p.currency = .absent) : header.currencyCode = d.currencyCode := by
  obtain ⟨hstored, hheader, -⟩ := h
  simp only [updatedHeader, bind_eq_ok, check_eq_ok, pure_eq_ok] at hheader
  obtain ⟨_, -, _, -, rfl⟩ := hheader
  have hinputs := s.currency_ok
  simp only [DocumentPayload.currencyText, hcurrency, Field.text, Field.get?_absent, hstored, Option.getD_none]
    at hinputs
  obtain ⟨htext, -⟩ := documentCurrencyInputs_spec hinputs
  rw [CurrencyCode.ofText?_code, Option.some.injEq] at htext
  simp [← htext]

/-- **Updates of documents.** -/
theorem Updated.keepsAbsent_iff {s : DocumentSave env db p} (h : s.Updated db' id d header) :
    p.KeepsAbsent d (s.document header) ↔ p.RebuildsStored db d := by
  have hcurrency := h.currencyCode_of_absent
  have hrate := h.exchangeRate_of_absent
  obtain ⟨-, hheader, -⟩ := h
  simp only [updatedHeader, bind_eq_ok, check_eq_ok, pure_eq_ok] at hheader
  obtain ⟨_, hdraft, _, -, rfl⟩ := hheader
  constructor
  · intro hkept
    refine ⟨fun ha => ?_, fun ha => ?_, fun ha hsent => ?_, fun ha => ?_⟩
    · obtain ⟨hrows, hamounts, hbaseAmounts⟩ := s.of_lines_absent ha
      obtain ⟨hlines, htotals, hbaseTotals⟩ := hkept.lines ha
      exact ⟨hlines.symm.trans hrows, htotals.symm.trans hamounts, hbaseTotals.symm.trans hbaseAmounts⟩
    · rw [← s.typeId_of_absent ha]
      exact hkept.documentTypeId ha
    · rw [← hkept.exchangeRate ha]
      exact (hrate ha).trans (if_pos hsent)
    · rw [← s.base_eq]
      exact hkept.baseCurrencyCode ha
  · intro hrebuilt
    exact {
      documentNo := fun _ _ => rfl
      documentType := fun _ => rfl
      documentTypeId := fun ha => (s.typeId_of_absent ha).trans (hrebuilt.documentTypeId ha)
      documentDate := fun hdate hdocumentDate => by
        simp [document, documentColumns, DocumentPayload.issuedOn, hdate, hdocumentDate]
      postingDate := fun ha => by simp [document, documentColumns, ha]
      dueDate := fun ha => by simp [document, documentColumns, ha]
      valueDate := fun ha => by simp [document, documentColumns, ha]
      currencyCode := hcurrency
      exchangeRate := fun ha => Numeric.ext <| by
        rw [document, hrate ha]
        split
        · next hsent => exact (hrebuilt.exchangeRate ha hsent).symm
        · rfl
      baseCurrencyCode := fun ha => (congrArg some s.base_eq).trans (hrebuilt.baseCurrencyCode ha)
      partyId := fun ha => by simp [document, documentColumns, ha]
      serviceOrderId := fun ha => by simp [document, documentColumns, ha]
      referenceNumber := fun hnumber hno => by simp [document, documentColumns, Field.text, hnumber, hno]
      description := fun hremark hdescription => by simp [document, documentColumns, Field.text, hremark, hdescription]
      paymentMethodCode := fun ha => by simp [document, documentColumns, Field.text, ha]
      financialAccountId := fun ha => by simp [document, documentColumns, ha]
      lines := fun ha => by
        obtain ⟨hrows, hamounts, hbaseAmounts⟩ := s.of_lines_absent ha
        obtain ⟨hlines, htotals, hbaseTotals⟩ := hrebuilt.lines ha
        exact ⟨hrows.trans hlines.symm, hamounts.trans htotals.symm, hbaseAmounts.trans hbaseTotals.symm⟩
      unwritten := ⟨hdraft.symm, rfl, rfl, rfl⟩ }

end DocumentSave

/-! ## Journals -/

/-- Of a draft `e` that was saved as `e'`, a column is unchanged while the body has no key of it. -/
structure JournalPayload.KeepsAbsent (p : JournalPayload) (e e' : JournalEntry) : Prop where
  entryNo : p.entryNo = .absent → e'.entryNo = e.entryNo
  entryType : p.entryType = .absent → e'.entryType = e.entryType
  entryDate : p.entryDate = .absent → e'.entryDate = e.entryDate
  postingDate : p.postingDate = .absent →
    e'.postingDate = e.postingDate ∧ e'.accountingPeriodId = e.accountingPeriodId
  description : p.description = .absent → e'.description = e.description
  lines : p.lines = .absent → e'.lines = e.lines ∧ e'.debitTotal = e.debitTotal ∧ e'.creditTotal = e.creditTotal
  /-- No key writes these. -/
  unwritten : e'.status = e.status ∧ e'.sourceDocumentId = e.sourceDocumentId ∧ e'.postingRuleId = e.postingRuleId ∧
    e'.reversalOfJournalEntryId = e.reversalOfJournalEntryId ∧ e'.createdByUserId = e.createdByUserId ∧
    e'.postedByUserId = e.postedByUserId

/-- The key of the period that `resolvePeriod` finds or inserts. -/
def periodFor (periods : Table AccountingPeriod) (d : Date) : ℕ :=
  ((periods.rows.find? fun r => r.2.covers d).map Prod.fst).getD periods.nextId

theorem periodFor_of_resolvePeriod {periods periods' : Table AccountingPeriod} {d : Date} {id : ℕ}
    {period : AccountingPeriod} (h : resolvePeriod periods d = .ok (periods', id, period)) :
    periodFor periods d = id := by
  unfold resolvePeriod at h
  split at h
  · next r hr =>
    cases h
    simp [periodFor, hr]
  · next hnone =>
    simp only [bind_eq_ok, check_eq_ok, pure_eq_ok] at h
    obtain ⟨_, _, h⟩ := h
    cases h
    simp [periodFor, hnone]

/-- What the update of draft `e` rebuilds without its key comes out as `e` has it. -/
structure JournalPayload.RebuildsStored (env : Env) (db : Db) (p : JournalPayload) (e : JournalEntry) : Prop where
  lines : p.lines = .absent → e.lines = [] ∧ e.debitTotal = 0 ∧ e.creditTotal = 0
  entryDate : p.entryDate = .absent → env.today = e.entryDate
  postingDate : p.postingDate = .absent → p.newEntryDate env = e.postingDate
  accountingPeriodId : p.postingDate = .absent → some (periodFor db.periods e.postingDate) = e.accountingPeriodId

/-- What a successful save of a journal computed. -/
structure JournalSave (env : Env) (db : Db) (p : JournalPayload) where
  periods : Table AccountingPeriod
  periodId : ℕ
  period : AccountingPeriod
  lines : List JournalLinePayload
  drafts : List JournalLineDraft
  rows : List JournalEntryLine
  debitTotal : Money
  creditTotal : Money
  period_ok : resolvePeriod db.periods (p.newPostingDate env) = .ok (periods, periodId, period)
  lines_ok : rowsOf journalLineSchema p.lines = .ok lines
  drafts_ok : journalDraftsFrom db 0 lines = .ok drafts
  rows_ok : journalRowsFrom 1 drafts = .ok rows
  debit_ok : storeMoney (drafts.map JournalLineDraft.debitAmount).sum = .ok debitTotal
  credit_ok : storeMoney (drafts.map JournalLineDraft.creditAmount).sum = .ok creditTotal

namespace JournalSave
variable {env : Env} {db db' : Db} {p : JournalPayload}

/-- The row that an update leaves of `e`. -/
def entry (s : JournalSave env db p) (e : JournalEntry) : JournalEntry :=
  setTotals s.debitTotal s.creditTotal { editJournal env p s.periodId e with lines := s.rows }

theorem of_lines_absent (s : JournalSave env db p) (h : p.lines = .absent) :
    s.rows = [] ∧ s.debitTotal = 0 ∧ s.creditTotal = 0 := by
  have hlines : s.lines = [] := by simpa [h, rowsOf, eq_comm] using s.lines_ok
  have hdrafts : s.drafts = [] := by simpa [hlines, journalDraftsFrom, eq_comm] using s.drafts_ok
  have hrows : s.rows = [] := by simpa [hdrafts, journalRowsFrom, eq_comm] using s.rows_ok
  have hdebit : 0 = s.debitTotal := by simpa [hdrafts] using s.debit_ok
  have hcredit : 0 = s.creditTotal := by simpa [hdrafts] using s.credit_ok
  exact ⟨hrows, hdebit.symm, hcredit.symm⟩

end JournalSave

theorem storedEntry_eq_some {db : Db} {p : JournalPayload} {id : ℕ} {e : JournalEntry} :
    storedEntry db p = some (id, e) ↔ p.id.get? = some id ∧ db.entries.get? id = some e :=
  Table.bind_get?_eq_some

/-- **What an update of a journal leaves**: the header it edited, over the lines of the body. -/
theorem saveJournal_update {env : Env} {db : Db} {p : JournalPayload} {r : Db × ℕ} {id : ℕ} {e : JournalEntry}
    (hstored : storedEntry db p = some (id, e)) (h : saveJournal env db p = .ok r) :
    ∃ s : JournalSave env db p, r.1.entries.get? id = some (s.entry e) := by
  simp only [saveJournal, bind_eq_ok, pure_eq_ok] at h
  obtain ⟨_, -, ⟨periods, periodId, period⟩, hperiod, lines, hlines, ⟨db₁, i⟩, h₁, db₂, h₂, drafts, hdrafts, rows, hrows,
    debitTotal, hdebit, creditTotal, hcredit, db₃, h₃, db₄, h₄, db₅, hcommit, rfl⟩ := h
  refine ⟨⟨periods, periodId, period, lines, drafts, rows, debitTotal, creditTotal, hperiod, hlines, hdrafts, hrows,
    hdebit, hcredit⟩, ?_⟩
  have hfound : storedEntry { db with periods := periods } p = some (id, e) := hstored
  simp only [writeHeader, hfound, updateEntry, bind_eq_ok, check_eq_ok, pure_eq_ok] at h₁
  obtain ⟨_, -, _, ⟨_, -, rfl⟩, h₁⟩ := h₁
  cases h₁
  simp only [deleteLines, insertLines, updateEntry, bind_eq_ok, check_eq_ok, pure_eq_ok] at h₂ h₃ h₄
  obtain ⟨_, -, rfl⟩ := h₂
  obtain ⟨_, -, rfl⟩ := h₃
  obtain ⟨_, -, rfl⟩ := h₄
  obtain ⟨rfl, -⟩ := commit_spec hcommit
  simp [JournalSave.entry, (storedEntry_eq_some.1 hstored).2]

/-- **Updates of journals.** -/
theorem JournalSave.keepsAbsent_iff {env : Env} {db : Db} {p : JournalPayload} (s : JournalSave env db p)
    (e : JournalEntry) : p.KeepsAbsent e (s.entry e) ↔ p.RebuildsStored env db e := by
  have hperiod := periodFor_of_resolvePeriod s.period_ok
  have hposted (ha : p.postingDate = .absent) : p.newPostingDate env = p.newEntryDate env := by
    simp [JournalPayload.newPostingDate, ha]
  have hentered (ha : p.entryDate = .absent) : p.newEntryDate env = env.today := by
    simp [JournalPayload.newEntryDate, ha]
  constructor
  · intro hkept
    refine ⟨fun ha => ?_, fun ha => ?_, fun ha => ?_, fun ha => ?_⟩
    · obtain ⟨hrows, hdebit, hcredit⟩ := s.of_lines_absent ha
      obtain ⟨hlines, hdebitTotal, hcreditTotal⟩ := hkept.lines ha
      exact ⟨hlines.symm.trans hrows, hdebitTotal.symm.trans hdebit, hcreditTotal.symm.trans hcredit⟩
    · rw [← hentered ha]
      exact hkept.entryDate ha
    · rw [← hposted ha]
      exact (hkept.postingDate ha).1
    · obtain ⟨hdate, hid⟩ := hkept.postingDate ha
      rw [← hdate, ← hid]
      exact congrArg some hperiod
  · intro hrebuilt
    exact {
      entryNo := fun _ => rfl
      entryType := fun _ => rfl
      entryDate := fun ha => (hentered ha).trans (hrebuilt.entryDate ha)
      postingDate := fun ha => by
        have hdate : p.newPostingDate env = e.postingDate := (hposted ha).trans (hrebuilt.postingDate ha)
        refine ⟨hdate, ?_⟩
        rw [← hrebuilt.accountingPeriodId ha, ← hdate]
        exact congrArg some hperiod.symm
      description := fun ha => by simp [entry, setTotals, editJournal, Field.text, ha]
      lines := fun ha => by
        obtain ⟨hrows, hdebit, hcredit⟩ := s.of_lines_absent ha
        obtain ⟨hlines, hdebitTotal, hcreditTotal⟩ := hrebuilt.lines ha
        exact ⟨hrows.trans hlines.symm, hdebit.trans hdebitTotal.symm, hcredit.trans hcreditTotal.symm⟩
      unwritten := ⟨rfl, rfl, rfl, rfl, rfl, rfl⟩ }

/-! ## Both writers -/

/-- Entry 1, saved again with the lines of the cash sale. -/
def sameSale : JournalPayload := { cashSale with id := .value 1 }

/-- A save of document 1 that sends a remark, and one of entry 1 that sends a description. -/
def remarkOnly : DocumentPayload := { DocumentPayload.empty with id := .value 1, remark := .value "Paid in cash" }
def descriptionOnly : JournalPayload :=
  { JournalPayload.empty with id := .value 1, description := .value "Paid in cash" }

end LcsSystem
