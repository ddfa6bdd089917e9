import LcsSystem.Finance.Documents

/-!
# What a saved document satisfies

`saveDocument` taken apart once: `DocumentSave` holds what a successful save computed and the facts
its checks established; it either created its document or updated a stored draft. The lines it
stores are the roundings of `LineDraft`s that satisfy `LineDraft.Valid`.
-/

namespace LcsSystem
open Calendar Relational DecimalArith Checks

/-! ## Lines -/

/-- What the checks of one line leave through. -/
structure LineDraft.Valid (l : LineDraft) : Prop where
  quantity_pos : 0 < l.quantity
  unitPrice_nonneg : 0 ≤ l.unitPrice
  discount_nonneg : 0 ≤ l.discount
  discount_le : l.discount ≤ l.base
  tax_nonneg : 0 ≤ l.taxAmount

theorem LineDraft.Valid.amount_nonneg {l : LineDraft} (h : l.Valid) : 0 ≤ l.amount := by
  have := h.discount_le
  have := h.tax_nonneg
  unfold LineDraft.amount
  linarith

/-- No error means that no condition of the line failed. -/
theorem lineErrors_eq_nil {pre : String} {quantity unitPrice base discount : ℚ} {tax : String × ℚ × ℚ} :
    lineErrors pre quantity unitPrice base discount tax = [] ↔
      0 < quantity ∧ 0 ≤ unitPrice ∧ (0 ≤ discount ∧ discount ≤ base) ∧ 0 ≤ tax.2.1 ∧
        0 ≤ tax.2.2 ∧ tax.2.2 ≤ 100 := by
  simp only [lineErrors, addError_eq_nil, not_or, not_lt, not_le]
  tauto

theorem draftOfLine_valid {db : Db} {index : ℕ} {line : LinePayload} {l : LineDraft}
    (h : draftOfLine db index line = .ok l) : l.Valid := by
  simp only [draftOfLine, bind_eq_ok, check_eq_ok, pure_eq_ok] at h
  obtain ⟨quantity, -, unitPrice, -, discount, -, tax, -, _, herrors, accountId, -, rfl⟩ := h
  obtain ⟨hq, hp, ⟨hd, hdb⟩, ht, -, -⟩ := lineErrors_eq_nil.1 herrors
  exact ⟨hq, hp, hd, hdb, ht⟩

theorem draftLinesFrom_valid {db : Db} {index : ℕ} {lines : List LinePayload} {ls : List LineDraft}
    (h : draftLinesFrom db index lines = .ok ls) : ∀ l ∈ ls, l.Valid := by
  induction lines generalizing index ls with
  | nil => cases h; simp
  | cons line lines ih =>
    simp only [draftLinesFrom, bind_eq_ok, pure_eq_ok] at h
    obtain ⟨draft, hdraft, drafts, hdrafts, rfl⟩ := h
    exact List.forall_mem_cons.2 ⟨draftOfLine_valid hdraft, ih hdrafts⟩

/-- The amounts of a stored row are those of its draft, rounded. -/
def LineDraft.RowOf (l : LineDraft) (row : DocumentLine) : Prop :=
  row.taxAmount.val = roundHalfUp 4 l.taxAmount ∧ row.lineAmount.val = roundHalfUp 4 l.amount

theorem rowsFrom_rowOf {lineNo : ℕ} {ls : List LineDraft} {rows : List DocumentLine}
    (h : rowsFrom lineNo ls = .ok rows) : List.Forall₂ LineDraft.RowOf ls rows := by
  induction ls generalizing lineNo rows with
  | nil => cases h; exact .nil
  | cons l ls ih =>
    simp only [rowsFrom, bind_eq_ok, pure_eq_ok] at h
    obtain ⟨row, hrow, rows, hrows, rfl⟩ := h
    refine .cons ?_ (ih hrows)
    simp only [LineDraft.row, bind_eq_ok, pure_eq_ok] at hrow
    obtain ⟨_, -, _, -, _, -, _, -, _, htax, _, hamount, rfl⟩ := hrow
    exact ⟨val_of_store htax, val_of_store hamount⟩

/-! ## Totals -/

/-- What `documentTotals` returns: the rows and amounts of valid lines. -/
structure TotalsOf (db : Db) (p : DocumentPayload) (lines : List LinePayload) (rate : ℚ) (precision : ℕ)
    (amounts baseAmounts : Amounts) (rows : List DocumentLine) where
  drafts : List LineDraft
  drafts_ok : draftLinesFrom db 0 lines = .ok drafts
  rows_ok : rowsFrom 1 drafts = .ok rows
  amounts_ok : (ExactAmounts.ofLines drafts).toRow = .ok amounts
  base_ok : (ExactAmounts.ofLines drafts).toBaseRow rate precision = .ok baseAmounts

theorem documentTotals_spec {db : Db} {p : DocumentPayload} {lines : List LinePayload} {rate : ℚ} {precision : ℕ}
    {amounts baseAmounts : Amounts} {rows : List DocumentLine}
    (h : documentTotals db p lines rate precision = .ok (amounts, baseAmounts, rows)) :
    Nonempty (TotalsOf db p lines rate precision amounts baseAmounts rows) := by
  simp only [documentTotals, bind_eq_ok, check_eq_ok, pure_eq_ok] at h
  obtain ⟨drafts, hdrafts, _, -, rows', hrows, amounts', hamounts, base', hbase, h⟩ := h
  cases h
  exact ⟨⟨drafts, hdrafts, hrows, hamounts, hbase⟩⟩

/-! ## The whole save -/

/-- What a successful save computed before it wrote. -/
structure DocumentSave (env : Env) (db : Db) (p : DocumentPayload) where
  typeId : Option ℕ
  documentType : String
  lines : List LinePayload
  currency : CurrencyCode
  rate : ℚ
  base : CurrencyCode
  precision : ℕ
  storedRate : Rate
  amounts : Amounts
  baseAmounts : Amounts
  rows : List DocumentLine
  type_ok : resolveDocumentType db p = .ok (typeId, documentType)
  lines_ok : rowsOf documentLineSchema p.lines = .ok lines
  currency_ok : documentCurrencyInputs db p.exchangeRate.get? (p.currencyText db) db.defaultCurrency
    (p.rateDate env db) ((storedDocument db p).map fun s => s.2.exchangeRate.val) = .ok (currency, rate, base, precision)
  rate_ok : store 19 8 rate = .ok storedRate
  totals_ok : documentTotals db p lines rate precision = .ok (amounts, baseAmounts, rows)

namespace DocumentSave
variable {env : Env} {db : Db} {p : DocumentPayload}

/-- The header with everything the lines decide. -/
def document (s : DocumentSave env db p) (header : Document) : Document :=
  { header with amounts := s.amounts, baseAmounts := s.baseAmounts, lines := s.rows, documentTypeId := s.typeId }

/-- The save created document `id`. -/
def Created (s : DocumentSave env db p) (db' : Db) (id : ℕ) (header : Document) : Prop :=
  storedDocument db p = none ∧ id = db.documents.nextId ∧ ∃ sequences,
    newHeader env db p s.documentType s.currency s.storedRate s.base = .ok (sequences, header) ∧
    db' = { db with sequences := sequences, documents := db.documents.insert (s.document header) }

/-- The save rewrote the stored draft `d`. -/
def Updated (s : DocumentSave env db p) (db' : Db) (id : ℕ) (d header : Document) : Prop :=
  storedDocument db p = some (id, d) ∧
    updatedHeader p s.documentType d s.currency s.storedRate s.base = .ok header ∧
    db' = { db with documents := db.documents.modify id fun _ => s.document header }

end DocumentSave

/-- **A save creates or updates**: nothing else comes out of `saveDocument`. -/
theorem saveDocument_spec {env : Env} {db db' : Db} {p : DocumentPayload} {id : ℕ}
    (h : saveDocument env db p = .ok (db', id)) :
    ∃ (s : DocumentSave env db p) (header : Document),
      s.Created db' id header ∨ ∃ d, s.Updated db' id d header := by
  simp only [saveDocument, bind_eq_ok] at h
  obtain ⟨_, -, ⟨typeId, documentType⟩, htype, _, -, lines, hlines, _, -, ⟨currency, rate, base, precision⟩,
    hcurrency, storedRate, hrate, h⟩ := h
  cases hstored : storedDocument db p with
  | none =>
    simp only [hstored, bind_eq_ok, pure_eq_ok] at h
    obtain ⟨⟨sequences, header⟩, hheader, ⟨amounts, baseAmounts, rows⟩, htotals, h⟩ := h
    cases h
    exact ⟨⟨typeId, documentType, lines, currency, rate, base, precision, storedRate, amounts, baseAmounts, rows,
      htype, hlines, hcurrency, hrate, htotals⟩, header, .inl ⟨hstored, rfl, sequences, hheader, rfl⟩⟩
  | some stored =>
    obtain ⟨i, d⟩ := stored
    simp only [hstored, bind_eq_ok, pure_eq_ok] at h
    obtain ⟨header, hheader, ⟨amounts, baseAmounts, rows⟩, htotals, h⟩ := h
    cases h
    exact ⟨⟨typeId, documentType, lines, currency, rate, base, precision, storedRate, amounts, baseAmounts, rows,
      htype, hlines, hcurrency, hrate, htotals⟩, header, .inr ⟨d, hstored, hheader, rfl⟩⟩

theorem storedDocument_eq_some {db : Db} {p : DocumentPayload} {id : ℕ} {d : Document} :
    storedDocument db p = some (id, d) ↔ p.id.get? = some id ∧ db.documents.get? id = some d :=
  Table.bind_get?_eq_some

/-- The saved document is the one stored under the returned id. -/
theorem saveDocument_get? {env : Env} {db db' : Db} {p : DocumentPayload} {id : ℕ}
    {s : DocumentSave env db p} {header : Document}
    (h : s.Created db' id header ∨ ∃ d, s.Updated db' id d header) :
    db'.documents.get? id = some (s.document header) := by
  rcases h with ⟨-, rfl, _, -, rfl⟩ | ⟨d, hstored, -, rfl⟩
  · exact Table.get?_insert_self _ _
  · obtain ⟨-, hd⟩ := storedDocument_eq_some.1 hstored
    simp [hd]

/-- Every other document is as it was. -/
theorem saveDocument_get?_of_ne {env : Env} {db db' : Db} {p : DocumentPayload} {id : ℕ}
    {s : DocumentSave env db p} {header : Document}
    (h : s.Created db' id header ∨ ∃ d, s.Updated db' id d header) {i : ℕ} (hi : i ≠ id) :
    db'.documents.get? i = db.documents.get? i := by
  rcases h with ⟨-, rfl, _, -, rfl⟩ | ⟨d, -, -, rfl⟩
  · exact (Table.get?_insert _ _ _).trans (if_neg hi)
  · exact Table.get?_modify_of_ne _ hi

theorem saveDocument_defaultCurrency {env : Env} {db db' : Db} {p : DocumentPayload} {id : ℕ}
    {s : DocumentSave env db p} {header : Document}
    (h : s.Created db' id header ∨ ∃ d, s.Updated db' id d header) : db'.defaultCurrency = db.defaultCurrency := by
  rcases h with ⟨-, -, _, -, rfl⟩ | ⟨d, -, -, rfl⟩ <;> rfl

end LcsSystem
