import LcsSystem.Finance.PostedDocuments
import LcsSystem.Finance.SavedDocuments

/-!
# When a saved document posts

A saved header total is rounded once, its lines are rounded one by one, and a posting sets the
header against the lines. `SplitsExactly` is what the two must satisfy: the line amounts add up to
the total, or, when no line has anything left after its tax, the fallback entry happens to balance.
-/

namespace LcsSystem
open Relational DecimalArith Checks

/-! ## The sides of a document with nonnegative lines -/

def lineTotal (d : Document) : ℚ := (d.lines.map fun l => l.lineAmount.val).sum

theorem sum_parts {splits : Bool} {line : DocumentLineInput} (ha : 0 ≤ line.amount) (ht : 0 ≤ line.tax) :
    (line.parts splits).sum = line.amount := by
  have htax : 0 ≤ line.taxPart splits := by
    unfold DocumentLineInput.taxPart
    split
    · exact le_min ht ha
    · exact le_rfl
  have hrest : 0 ≤ line.restPart splits := by
    unfold DocumentLineInput.restPart DocumentLineInput.taxPart
    split
    · have := min_le_right line.tax line.amount
      linarith
    · simpa using ha
  rw [DocumentLineInput.parts, List.sum_append, sum_positivePart htax, sum_positivePart hrest]
  unfold DocumentLineInput.restPart
  ring

theorem sum_postedParts {splits : Bool} {lines : List DocumentLineInput}
    (h : ∀ line ∈ lines, 0 ≤ line.amount ∧ 0 ≤ line.tax) :
    (postedParts splits lines).sum = (lines.map DocumentLineInput.amount).sum := by
  induction lines with
  | nil => rfl
  | cons line lines ih =>
    obtain ⟨⟨ha, ht⟩, hrest⟩ := List.forall_mem_cons.1 h
    have htail : (postedParts splits lines).sum = (lines.map DocumentLineInput.amount).sum := ih hrest
    simp only [postedParts, List.map_cons, List.flatten_cons, List.sum_append, List.sum_cons] at htail ⊢
    rw [htail, sum_parts ha ht]

theorem sum_amount_postingLines (d : Document) :
    ((postingLines d).map DocumentLineInput.amount).sum = lineTotal d := by
  simp [postingLines, lineTotal, Function.comp_def]

/-- The stored header and lines agree as the posting of the type needs it. -/
def SplitsExactly (d : Document) (splits : Bool) : Prop :=
  if ReachesDetail splits (postingLines d) then lineTotal d = d.amounts.total.val
  else if lineDetailIsCredit d.documentType then lineTotal d = 0
  else lineTotal d = 2 * d.amounts.total.val

instance (d : Document) (splits : Bool) : Decidable (SplitsExactly d splits) := by
  unfold SplitsExactly
  infer_instance

theorem journalSides_balanced_iff {d : Document} {splits : Bool}
    (hdetailed : (strategyFor d.documentType).detailed = true) (hlines : d.lines ≠ [])
    (hnonneg : ∀ line ∈ postingLines d, 0 ≤ line.amount ∧ 0 ≤ line.tax) :
    (journalSides d.documentType splits d.amounts.total.val (postingLines d)).1.sum =
        (journalSides d.documentType splits d.amounts.total.val (postingLines d)).2.sum ↔
      SplitsExactly d splits := by
  have hne : ((strategyFor d.documentType).detailed && !(postingLines d).isEmpty) = true := by
    simp [hdetailed, postingLines, hlines]
  have hparts : (postedParts splits (postingLines d)).sum = lineTotal d := by
    rw [sum_postedParts hnonneg, sum_amount_postingLines]
  unfold journalSides SplitsExactly
  rw [if_pos hne]
  by_cases hany : ReachesDetail splits (postingLines d) <;> by_cases hc : lineDetailIsCredit d.documentType = true
  · simp only [hany, hc, if_true, List.append_nil, List.sum_singleton, hparts]
    exact eq_comm
  · simp [hany, hc, hparts]
  · simp only [hany, hc, if_true, if_false, List.sum_singleton, List.sum_append, hparts]
    constructor <;> intro h <;> linarith
  · simp only [hany, hc, Bool.false_eq_true, if_false, List.sum_cons, List.sum_nil, add_zero, hparts]
    constructor <;> intro h <;> linarith

/-! ## Saved documents -/

theorem rowOf_nonneg {ls : List LineDraft} {rows : List DocumentLine} (hrows : List.Forall₂ LineDraft.RowOf ls rows)
    (hvalid : ∀ l ∈ ls, l.Valid) : ∀ row ∈ rows, 0 ≤ row.lineAmount.val ∧ 0 ≤ row.taxAmount.val := by
  induction hrows with
  | nil => simp
  | cons hrow _ ih =>
    obtain ⟨hl, hls⟩ := List.forall_mem_cons.1 hvalid
    refine List.forall_mem_cons.2 ⟨⟨?_, ?_⟩, ih hls⟩
    · rw [hrow.2]; exact roundHalfUp_nonneg hl.amount_nonneg
    · rw [hrow.1]; exact roundHalfUp_nonneg hl.tax_nonneg

/-- A stored positive total comes from at least one line, and no stored line is negative. -/
theorem TotalsOf.lines_spec {db : Db} {p : DocumentPayload} {lines : List LinePayload} {rate : ℚ} {precision : ℕ}
    {amounts baseAmounts : Amounts} {rows : List DocumentLine}
    (t : TotalsOf db p lines rate precision amounts baseAmounts rows) :
    (0 < amounts.total.val → rows ≠ []) ∧ ∀ row ∈ rows, 0 ≤ row.lineAmount.val ∧ 0 ≤ row.taxAmount.val := by
  have hrows := rowsFrom_rowOf t.rows_ok
  refine ⟨?_, rowOf_nonneg hrows (draftLinesFrom_valid t.drafts_ok)⟩
  rintro hpos rfl
  have hdrafts : t.drafts = [] := List.length_eq_zero_iff.1 (by simpa using hrows.length_eq)
  have hamounts := t.amounts_ok
  simp only [ExactAmounts.toRow, bind_eq_ok, pure_eq_ok] at hamounts
  obtain ⟨_, -, _, -, _, -, total, htotal, rfl⟩ := hamounts
  have hzero := val_of_store htotal
  simp only [hdrafts, ExactAmounts.total, ExactAmounts.ofLines, List.map_nil, List.sum_nil, sub_zero, add_zero,
    roundHalfUp_zero] at hzero
  simp only [hzero, lt_irrefl] at hpos

/-- What `save_document` guarantees about the stored lines. -/
theorem saveDocument_lines {env : Env} {db db' : Db} {p : DocumentPayload} {id : ℕ} {d : Document}
    (h : saveDocument env db p = .ok (db', id)) (hd : db'.documents.get? id = some d) :
    (0 < d.amounts.total.val → d.lines ≠ []) ∧ ∀ line ∈ postingLines d, 0 ≤ line.amount ∧ 0 ≤ line.tax := by
  obtain ⟨s, header, hs⟩ := saveDocument_spec h
  rw [saveDocument_get? hs] at hd
  obtain rfl : s.document header = d := by simpa using hd
  obtain ⟨t⟩ := documentTotals_spec s.totals_ok
  obtain ⟨hlines, hnonneg⟩ := t.lines_spec
  refine ⟨hlines, fun line hline => ?_⟩
  obtain ⟨row, hrow, rfl⟩ := List.mem_map.1 hline
  exact hnonneg row hrow

/-- **Postability of a saved document.** In whatever database the document is later posted, as long
as its rules resolve every account, `build` returns a balanced draft of at least two lines exactly
when the stored header and lines agree. -/
theorem build_saved_iff {env : Env} {db db' : Db} {p : DocumentPayload} {id : ℕ} {d : Document}
    (hsave : saveDocument env db p = .ok (db', id)) (hd : db'.documents.get? id = some d)
    (hdetailed : (strategyFor d.documentType).detailed = true) (htotal : 0 < d.amounts.total.val)
    (rules : Db) (control : PostingRuleAccounts)
    (hcontrol : resolve rules d.documentType none "debit" "credit" = .ok control)
    (hlines : ∀ line ∈ postingLines d, 0 < line.restPart (splitsTax d.documentType control) →
      ∃ a, detailAccount rules d.documentType line = .ok a) :
    (∃ draft, build rules d.documentType d.amounts.total.val d.label (postingLines d) = .ok draft ∧
        draft.debitTotal = draft.creditTotal ∧ 2 ≤ draft.lines.length) ↔
      SplitsExactly d (splitsTax d.documentType control) := by
  obtain ⟨hne, hnonneg⟩ := saveDocument_lines hsave hd
  rw [← journalSides_balanced_iff hdetailed (hne htotal) hnonneg,
    ← build_isOk_iff d.label htotal hcontrol hlines]
  constructor
  · rintro ⟨draft, hdraft, -, -⟩
    exact ⟨draft, hdraft⟩
  · rintro ⟨draft, hdraft⟩
    obtain ⟨-, _, -, -, hbalanced, -, -⟩ := build_spec hdraft
    exact ⟨draft, hdraft, hbalanced, (build_pos hdraft).2⟩

/-- Two lines of half a unit at 0.0001: the header stores 0.0001, each line stores 0.0001. -/
def halfUnits : DocumentPayload :=
  .ofLines .customerInvoice [.priced (1 / 2) (1 / 10000), .priced (1 / 2) (1 / 10000)]

/-- A line that is all tax. -/
def taxOnly : DocumentPayload :=
  .ofLines .customerInvoice [{ LinePayload.priced 1 0 with taxAmount := .value 5 }]

/-- A rule for customer invoices with a tax account. -/
def withTaxRule (db : Db) : Db :=
  { db with postingRules := Table.empty.insert ⟨.customerInvoice, none, 3, 5, some 4, true, 0⟩ }

/-- Both are saved with a positive total, every account resolves, and both are refused as unbalanced:
the first because its lines round up, the second because the fallback credits the total that the tax
line already credited. -/
theorem saved_but_unbalanced :
    (∃ r, saveDocument january (Db.fresh usd) halfUnits = .ok r ∧ ∃ d ∈ r.1.documents.get? r.2,
      0 < d.amounts.total.val ∧
      build r.1 d.documentType d.amounts.total.val d.label (postingLines d) =
        .error (.conflict "JOURNAL_UNBALANCED" "The generated journal is not balanced."
          [("total", "Debits 0.0001 do not equal credits 0.0002.")])) ∧
    (∃ r, saveDocument january (withTaxRule (Db.fresh usd)) taxOnly = .ok r ∧ ∃ d ∈ r.1.documents.get? r.2,
      0 < d.amounts.total.val ∧
      build r.1 d.documentType d.amounts.total.val d.label (postingLines d) =
        .error (.conflict "JOURNAL_UNBALANCED" "The generated journal is not balanced."
          [("total", "Debits 5.0000 do not equal credits 10.0000.")])) :=
  ⟨okAnd_eq_true.1 (by decide +kernel), okAnd_eq_true.1 (by decide +kernel)⟩

/-- A saved invoice of two units at 10 with 7 % tax posts. -/
theorem build_saved_taxed :
    ∃ r d, saveDocument january (withTaxRule (Db.fresh usd)) (.ofLines .customerInvoice
        [{ LinePayload.priced 2 10 with taxRate := .value 7 }]) = .ok r ∧
      r.1.documents.get? r.2 = some d ∧
      ∃ draft, build r.1 d.documentType d.amounts.total.val d.label (postingLines d) = .ok draft ∧
        draft.debitTotal = draft.creditTotal ∧ 2 ≤ draft.lines.length := by
  obtain ⟨r, hsave, d, hd, hdetailed, htotal, hcontrol, hlines, hsplits⟩ := okAnd_eq_true.1
    (show okAnd (saveDocument january (withTaxRule (Db.fresh usd)) (.ofLines .customerInvoice
        [{ LinePayload.priced 2 10 with taxRate := .value 7 }]))
      (fun r => ∃ d ∈ r.1.documents.get? r.2, (strategyFor d.documentType).detailed = true ∧
        0 < d.amounts.total.val ∧
        okAnd (resolve r.1 d.documentType none "debit" "credit") (fun control => control.tax.isSome = true) = true ∧
        (∀ line ∈ postingLines d, (detailAccount r.1 d.documentType line).isOk = true) ∧
        SplitsExactly d true) = true by decide +kernel)
  obtain ⟨control, hcontrol, htax⟩ := okAnd_eq_true.1 hcontrol
  have hsplit : splitsTax d.documentType control = true := by
    cases ht : d.documentType <;> simp_all [splitsTax, strategyFor]
  refine ⟨r, d, hsave, hd, (build_saved_iff hsave hd hdetailed htotal r.1 control hcontrol ?_).2 ?_⟩
  · exact fun line hline _ => isOk_eq_true.1 (hlines line hline)
  · rwa [hsplit]

/-! ## The base currency -/

/-- What the base column of a posted amount stores. -/
def baseColumn (d : Document) (amount : ℚ) : ℚ := roundHalfUp 4 (mul amount (rateOrOne d.exchangeRate.val))

theorem baseSums_journalLines {documentId : ℕ} {d : Document} {ls : List DraftLine} {rows : List JournalEntryLine}
    (h : List.Forall₂ (JournalLineOf documentId d) ls rows) :
    baseDebitSum rows = ((sideAmounts true ls).map (baseColumn d)).sum ∧
      baseCreditSum rows = ((sideAmounts false ls).map (baseColumn d)).sum := by
  induction h with
  | nil => exact ⟨rfl, rfl⟩
  | @cons l row ls rows hrow _ ih =>
    obtain ⟨ihd, ihc⟩ := ih
    have hdebit := hrow.baseDebit
    have hcredit := hrow.baseCredit
    simp only [baseDebitSum, baseCreditSum, sideAmounts, List.map_cons, List.sum_cons, List.filter_cons] at ihd ihc ⊢
    cases hl : l.debit <;> simp_all [baseColumn]

/-- The posted parts of the lines, and the total, each through its base column. -/
def convertedParts (d : Document) (splits : Bool) : ℚ :=
  ((postedParts splits (postingLines d)).map (baseColumn d)).sum

def convertedTotal (d : Document) : ℚ := baseColumn d d.amounts.total.val

/-- The stored base total of a posted document. -/
def convertedHeader (d : Document) (precision : ℕ) : ℚ :=
  roundHalfUp 4 (convertToBase d.amounts.total.val (rateOrOne d.exchangeRate.val) precision)

/-- The total rounds to the same base amount by its column and by the currency's precision, and so do
the parts it is posted in, taken together. -/
def ConvertsExactly (d : Document) (splits : Bool) (precision : ℕ) : Prop :=
  if (strategyFor d.documentType).detailed && !(postingLines d).isEmpty then
    if ReachesDetail splits (postingLines d) then
      convertedParts d splits = convertedTotal d ∧ convertedTotal d = convertedHeader d precision
    else if lineDetailIsCredit d.documentType then convertedTotal d = convertedHeader d precision
    else convertedParts d splits = 2 * convertedTotal d ∧ 2 * convertedTotal d = convertedHeader d precision
  else convertedTotal d = convertedHeader d precision

instance (d : Document) (splits : Bool) (precision : ℕ) : Decidable (ConvertsExactly d splits precision) := by
  unfold ConvertsExactly
  infer_instance

theorem postedParts_pos (splits : Bool) (lines : List DocumentLineInput) : ∀ x ∈ postedParts splits lines, 0 < x := by
  intro x hx
  obtain ⟨parts, hparts, hx⟩ := List.mem_flatten.1 hx
  obtain ⟨line, -, rfl⟩ := List.mem_map.1 hparts
  rcases List.mem_append.1 hx with hx | hx
  all_goals
    unfold positivePart at hx
    split at hx
    · cases hx
    · next hpos => exact List.mem_singleton.1 hx ▸ not_le.1 hpos

theorem postedParts_eq_nil {splits : Bool} {lines : List DocumentLineInput} (h : (postedParts splits lines).sum = 0) :
    postedParts splits lines = [] := by
  cases hparts : postedParts splits lines with
  | nil => rfl
  | cons x xs =>
    have hx : 0 < x := postedParts_pos splits lines x (hparts ▸ List.mem_cons_self)
    have hxs : 0 ≤ xs.sum := List.sum_nonneg fun y hy =>
      (postedParts_pos splits lines y (hparts ▸ List.mem_cons_of_mem _ hy)).le
    rw [hparts, List.sum_cons] at h
    linarith

/-- The two base sums of a journal whose sides balance. -/
theorem baseSides_iff {d : Document} {splits : Bool} {precision : ℕ}
    (hbalanced : (journalSides d.documentType splits d.amounts.total.val (postingLines d)).1.sum =
      (journalSides d.documentType splits d.amounts.total.val (postingLines d)).2.sum) :
    let sides := journalSides d.documentType splits d.amounts.total.val (postingLines d)
    ((sides.1.map (baseColumn d)).sum = (sides.2.map (baseColumn d)).sum ∧
        (sides.1.map (baseColumn d)).sum = convertedHeader d precision) ↔
      ConvertsExactly d splits precision := by
  by_cases hdetailed : ((strategyFor d.documentType).detailed && !(postingLines d).isEmpty) = true
  · by_cases hany : ReachesDetail splits (postingLines d) <;> cases hc : lineDetailIsCredit d.documentType
    · simp only [journalSides, ConvertsExactly, hdetailed, hany, hc, Bool.false_eq_true, if_true, if_false]
      simp only [convertedParts, convertedTotal, List.map_cons, List.map_nil, List.sum_cons, List.sum_nil, add_zero]
      constructor <;> rintro ⟨h1, h2⟩ <;> exact ⟨h1, by rw [← h2, h1]⟩
    · simp only [journalSides, ConvertsExactly, hdetailed, hany, hc, if_true, List.append_nil]
      simp only [convertedParts, convertedTotal, List.map_cons, List.map_nil, List.sum_cons, List.sum_nil, add_zero]
      constructor <;> rintro ⟨h1, h2⟩ <;> exact ⟨h1.symm, h2⟩
    · simp only [journalSides, ConvertsExactly, hdetailed, hany, hc, Bool.false_eq_true, if_true, if_false]
      simp only [convertedParts, convertedTotal, List.map_cons, List.map_nil, List.sum_cons, List.sum_nil, add_zero,
        two_mul]
      constructor <;> rintro ⟨h1, h2⟩ <;> exact ⟨h1, by rw [← h2, h1]⟩
    · simp only [journalSides, hdetailed, hany, hc, if_true, if_false, List.sum_append, List.sum_singleton] at hbalanced
      have hzero : (postedParts splits (postingLines d)).sum = 0 := by linarith
      have hnil := postedParts_eq_nil hzero
      simp [journalSides, ConvertsExactly, hdetailed, hany, hc, hnil, convertedTotal]
  · simp [journalSides, ConvertsExactly, hdetailed, convertedTotal]

theorem toBaseRow_total {a b : Amounts} {rate : ℚ} {precision : ℕ} (h : a.toBaseRow rate precision = .ok b) :
    b.total.val = roundHalfUp 4 (convertToBase a.total.val rate precision) := by
  simp only [Amounts.toBaseRow, bind_eq_ok, pure_eq_ok] at h
  obtain ⟨_, -, _, -, _, -, total, htotal, rfl⟩ := h
  exact val_of_store htotal

/-- **The base currency of a posting.** The journal a draft is posted with balances in the base
currency and agrees with the stored base total exactly when the conversion of the total splits into
the conversions of its parts. -/
theorem posted_base_iff {env : Env} {db db' : Db} {documentId entryId : ℕ} {d d' : Document} {e : JournalEntry}
    {control : PostingRuleAccounts} (hd : db.documents.get? documentId = some d) (hdraft : d.status = .draft)
    (hpost : postDocument env db documentId = .ok db')
    (hposting : ⟨documentId, entryId⟩ ∈ db'.postings.values) (he : db'.entries.get? entryId = some e)
    (hd' : db'.documents.get? documentId = some d')
    (hcontrol : resolve db d.documentType none "debit" "credit" = .ok control) :
    (baseDebitSum e.lines = baseCreditSum e.lines ∧ baseDebitSum e.lines = d'.baseAmounts.total.val) ↔
      ConvertsExactly d (splitsTax d.documentType control) (precisionOf db d.currencyCode) := by
  obtain ⟨d₀, hd₀, h⟩ := postDocument_spec hpost
  obtain rfl : d = d₀ := by simpa [hd] using hd₀
  rcases h with ⟨hposted, -⟩ | ⟨-, w, rfl, -⟩
  · rw [hdraft] at hposted; cases hposted
  have hentry : entryId = db.entries.nextId := by
    rw [PostingWrite.after, Table.values_insert] at hposting
    rcases List.mem_append.1 hposting with hold | hnew
    · exact absurd rfl (w.notPosted _ hold)
    · simpa using hnew
  obtain rfl : w.entry = e := by simpa [PostingWrite.after, hentry] using he
  obtain rfl : w.document d = d' := by simpa [PostingWrite.after, hd] using hd'
  obtain ⟨-, control', hcontrol', -, hbalanced, hdebit, hcredit⟩ := build_spec w.build_ok
  obtain rfl : control = control' := by simpa [hcontrol] using hcontrol'
  obtain ⟨hbd, hbc⟩ := baseSums_journalLines (journalLines_spec w.lines_ok)
  have hlines : w.entry.lines = w.lines := rfl
  have htotal : (w.document d).baseAmounts.total.val = convertedHeader d (precisionOf db d.currencyCode) :=
    toBaseRow_total w.base_ok
  rw [hlines, hbd, hbc, htotal, hdebit, hcredit]
  exact baseSides_iff (by rwa [JournalDraft.debitTotal, JournalDraft.creditTotal, hdebit, hcredit] at hbalanced)

/-- A riel invoice of 20 and 40 at a quarter of a dollar: the base sums are those of the header. -/
def rielInvoice : DocumentPayload :=
  { DocumentPayload.ofLines .customerInvoice [.priced 2 10, .priced 1 40] with
    currency := .value "KHR", exchangeRate := .value (1 / 4) }

theorem posted_riel_invoice :
    ∃ (db : Db) (id : ℕ) (db' : Db) (e : JournalEntry) (d' : Document),
      saveDocument january (Db.fresh usd) rielInvoice = .ok (db, id) ∧ postDocument january db id = .ok db' ∧
        db'.documents.get? id = some d' ∧ baseDebitSum e.lines = baseCreditSum e.lines ∧
        baseDebitSum e.lines = d'.baseAmounts.total.val := by
  obtain ⟨⟨db, id⟩, hsave, d, hd, hdraft, hcontrol, hpost, hconverts⟩ := okAnd_eq_true.1
    (show okAnd (saveDocument january (Db.fresh usd) rielInvoice) (fun r => ∃ d ∈ r.1.documents.get? r.2,
      d.status = .draft ∧
      okAnd (resolve r.1 d.documentType none "debit" "credit") (fun control => control.tax = none) = true ∧
      okAnd (postDocument january r.1 r.2) (fun db' => ∃ posting ∈ db'.postings.values,
        posting.financialDocumentId = r.2 ∧ (db'.entries.get? posting.journalEntryId).isSome = true ∧
        (db'.documents.get? r.2).isSome = true) = true ∧
      ConvertsExactly d false (precisionOf r.1 d.currencyCode)) = true by decide +kernel)
  obtain ⟨control, hcontrol, htax⟩ := okAnd_eq_true.1 hcontrol
  obtain ⟨db', hpost, ⟨documentId, entryId⟩, hposting, rfl, he, hd'⟩ := okAnd_eq_true.1 hpost
  obtain ⟨e, he⟩ := Option.isSome_iff_exists.1 he
  obtain ⟨d', hd'⟩ := Option.isSome_iff_exists.1 hd'
  have hsplit : splitsTax d.documentType control = false := by simp [splitsTax, htax]
  exact ⟨db, _, db', e, d', hsave, hpost, hd',
    (posted_base_iff hd hdraft hpost hposting he hd' hcontrol).2 (by rwa [hsplit])⟩

/-- Save a document, then post it. -/
def saveAndPost (env : Env) (db : Db) (p : DocumentPayload) : Result (Db × ℕ) := do
  let (db, id) ← saveDocument env db p
  let db ← postDocument env db id
  return (db, id)

/-- Two riel lines of 1 at 0.00025 dollars: each stores 0.0003, their total 0.0005, the header 0.00.
And a dollar line of 10.005 in dollars: the journal stores 10.0050, the header 10.01. -/
theorem posted_but_base_differs :
    (∃ r, saveAndPost january (Db.fresh usd) { DocumentPayload.ofLines .customerInvoice [.priced 1 1, .priced 1 1] with
        currency := .value "KHR", exchangeRate := .value (25 / 100000) } = .ok r ∧
      ∃ posting ∈ r.1.postings.values, ∃ e ∈ r.1.entries.get? posting.journalEntryId,
        posting.financialDocumentId = r.2 ∧ baseDebitSum e.lines = 5 / 10000 ∧ baseCreditSum e.lines = 6 / 10000) ∧
    (∃ r, saveAndPost january (Db.fresh usd) (.ofLines .customerInvoice [.priced 1 (10005 / 1000)]) = .ok r ∧
      ∃ posting ∈ r.1.postings.values, ∃ e ∈ r.1.entries.get? posting.journalEntryId,
        ∃ d ∈ r.1.documents.get? r.2, posting.financialDocumentId = r.2 ∧
          baseDebitSum e.lines = 10005 / 1000 ∧ d.baseAmounts.total.val = 1001 / 100) :=
  ⟨okAnd_eq_true.1 (by decide +kernel), okAnd_eq_true.1 (by decide +kernel)⟩

end LcsSystem
