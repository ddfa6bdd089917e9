import LcsSystem.Finance.Posting
import LcsSystem.Lib.Double
import LcsSystem.Operations.ChargeRuns
import LcsSystem.Operations.LineReadings

/-!
# Lines that are read and sent back

The reads of a charge (`modules/operations/service.py:922-945`) and of a document
(`modules/finance/service.py:529-548`) return the rate of a line, stored with 4 decimals, beside its tax
amount; on the way back the rate wins (`core/validation.py:525`). `tax_round_trip` is the exact condition
under which the figures survive, `recomputes_of_rate` a case in which they always do: the tax was entered
as a rate, and the numbers fit the columns and a double.
-/

namespace LcsSystem
open Relational DecimalArith Checks

/-! ## The reads -/

/-- A nullable column in a payload. -/
def Field.ofOption {α : Type} : Option α → Field α
  | some a => .value a
  | none => .blank

/-- A line of `_charge_with_details`: `tax` is the rate here. -/
def chargeLinePayload (db : Db) (row : ChargeLine) : ChargeLinePayload where
  taxRate := .value (jsonNumber row.taxRate.val)
  taxAmount := .value (jsonNumber row.taxAmount.val)
  tax := .value (jsonNumber row.taxRate.val)
  description := .value row.description
  feeTypeId := .ofOption row.feeTypeId
  feeType := .ofOption (row.feeTypeId.bind fun id => (db.feeTypes.get? id).map FeeType.name)
  quantity := .value (jsonNumber row.quantity.val)
  unitPrice := .value (jsonNumber row.unitPrice.val)
  unitAmount := .value (jsonNumber row.unitPrice.val)
  discount := .value (jsonNumber row.discountAmount.val)
  unit := .ofOption row.unitCode
  containerId := .absent
  serviceOrderContainerId := .absent

/-- `detail_account_code`: the account that posting would take now. -/
def detailAccountCode (db : Db) (documentType : DocType) (row : DocumentLine) : Option String :=
  (detailAccount db documentType ⟨row.description, row.lineAmount.val, row.taxAmount.val, row.feeTypeId,
    row.accountId⟩).toOption.map fun account => account.row.accountCode

/-- `_line_payload`: `tax` is the amount here. -/
def linePayload (db : Db) (documentType : DocType) (row : DocumentLine) : LinePayload where
  taxRate := .value (jsonNumber row.taxRate.val)
  taxAmount := .value (jsonNumber row.taxAmount.val)
  tax := .value (jsonNumber row.taxAmount.val)
  description := .value row.description
  feeTypeId := .ofOption row.feeTypeId
  feeType := .absent
  quantity := .value (jsonNumber row.quantity.val)
  unitPrice := .value (jsonNumber row.unitPrice.val)
  unitAmount := .value (jsonNumber row.unitPrice.val)
  discount := .value (jsonNumber row.discountAmount.val)
  unit := .absent
  accountCode := .ofOption (detailAccountCode db documentType row)
  accountId := .ofOption (row.accountId.map toString)
  serviceOrderId := .ofOption row.serviceOrderId
  serviceOrderContainerId := .absent

/-! ## The figures of a line sent back -/

/-- What either loop computes from the line that the read returned. -/
def LineValues.reread (row : LineValues) : LineFigures :=
  let sent := jsonNumber row.quantity.val
  let quantity := if sent = 0 then 1 else sent
  let unitPrice := jsonNumber row.unitPrice.val
  let discount := jsonNumber row.discountAmount.val
  let rate := jsonNumber row.taxRate.val
  { quantity, unitPrice
    base := mul quantity unitPrice
    discount
    taxRate := rate
    taxAmount := div (mul (mul quantity unitPrice - discount) rate) 100 }

theorem number_value {q x default : ℚ} {places : ℕ} (h : (Field.value q).number default places = some x) : x = q := by
  simp only [Field.number, Option.ite_none_right_eq_some, Option.some.injEq] at h
  exact h.2.symm

theorem resolved_rate {line : TaxInput} {q taxable : ℚ} {r : ℚ × ℚ} (hline : line.taxRate = .value q)
    (h : line.resolved taxable = some r) : r = (div (mul taxable q) 100, q) := by
  simp only [TaxInput.resolved, hline, Field.given, if_true, Option.map_eq_some_iff] at h
  obtain ⟨rate, hrate, rfl⟩ := h
  rw [number_value hrate]

theorem chargeLine_reread {db : Db} {row : ChargeLine} {f : LineFigures}
    (h : (chargeLinePayload db row).cells.Accepted f) : f = row.toLineValues.reread := by
  obtain ⟨hq, hp, hd, hb, ht⟩ := MoneyCells.figures_eq_some.1 h.1
  obtain ⟨sent, hsent, hquantity⟩ := number_orOne (f := .value (jsonNumber row.quantity.val)).1 hq
  have hsent' := number_value hsent
  have hprice := number_value hp
  have hdiscount := number_value hd
  have htax := resolved_rate rfl ht
  obtain ⟨quantity, unitPrice, base, discount, taxRate, taxAmount⟩ := f
  simp only [Prod.mk.injEq] at htax hb hquantity
  obtain ⟨rfl, rfl⟩ := htax
  subst hsent' hprice hdiscount hb hquantity
  rfl

theorem line_reread {db : Db} {documentType : DocType} {row : DocumentLine} {f : LineFigures}
    (h : (linePayload db documentType row).cells.Accepted f) : f = row.toLineValues.reread := by
  obtain ⟨hq, hp, hd, hb, ht⟩ := MoneyCells.figures_eq_some.1 h.1
  have hquantity := number_value hq
  have hpos : jsonNumber row.quantity.val ≠ 0 := hquantity ▸ h.2.quantity.ne'
  have hprice := number_value hp
  have hdiscount := number_value hd
  have htax := resolved_rate rfl ht
  obtain ⟨quantity, unitPrice, base, discount, taxRate, taxAmount⟩ := f
  simp only [Prod.mk.injEq] at htax hb
  obtain ⟨rfl, rfl⟩ := htax
  subst hquantity hprice hdiscount hb
  simp only [LineValues.reread, if_neg hpos]

theorem chargeDraftsFrom_accepted {db : Db} {orderId index : ℕ} {field : String} {lines : List ChargeLinePayload}
    {drafts : List ChargeLineDraft} (h : chargeDraftsFrom db orderId field index lines = .ok drafts) :
    List.Forall₂ (fun line draft => line.cells.Accepted draft.toLineFigures) lines drafts := by
  induction lines generalizing index drafts with
  | nil => cases h; exact .nil
  | cons line lines ih =>
    simp only [chargeDraftsFrom, bind_eq_ok, pure_eq_ok] at h
    obtain ⟨draft, hdraft, drafts, hdrafts, rfl⟩ := h
    refine .cons ?_ (ih hdrafts)
    simp only [draftOfChargeLine, bind_eq_ok, pure_eq_ok] at hdraft
    obtain ⟨figures, hfigures, _, -, rfl⟩ := hdraft
    exact chargeFigures_eq_ok.1 hfigures

theorem draftLinesFrom_accepted {db : Db} {index : ℕ} {lines : List LinePayload} {drafts : List LineDraft}
    (h : draftLinesFrom db index lines = .ok drafts) :
    List.Forall₂ (fun line draft => line.cells.Accepted draft.figures) lines drafts := by
  induction lines generalizing index drafts with
  | nil => cases h; exact .nil
  | cons line lines ih =>
    simp only [draftLinesFrom, bind_eq_ok, pure_eq_ok] at h
    obtain ⟨draft, hdraft, drafts, hdrafts, rfl⟩ := h
    exact .cons (draftOfLine_accepted hdraft) (ih hdrafts)

theorem chargeDraftsFrom_reread {db : Db} {orderId index : ℕ} {field : String} {lines : List ChargeLine}
    {drafts : List ChargeLineDraft}
    (h : chargeDraftsFrom db orderId field index (lines.map (chargeLinePayload db)) = .ok drafts) :
    drafts.map ChargeLineDraft.toLineFigures = (lines.map ChargeLine.toLineValues).map LineValues.reread := by
  have haccepted := List.forall₂_map_left_iff.1 (chargeDraftsFrom_accepted h)
  rw [List.map_map, eq_comm, ← List.forall₂_eq_eq_eq, List.forall₂_map_left_iff, List.forall₂_map_right_iff]
  exact haccepted.imp fun _ _ haccepted => (chargeLine_reread haccepted).symm

theorem draftLinesFrom_reread {db : Db} {documentType : DocType} {index : ℕ} {lines : List DocumentLine}
    {drafts : List LineDraft}
    (h : draftLinesFrom db index (lines.map (linePayload db documentType)) = .ok drafts) :
    drafts.map LineDraft.figures = (lines.map DocumentLine.toLineValues).map LineValues.reread := by
  have haccepted := List.forall₂_map_left_iff.1 (draftLinesFrom_accepted h)
  rw [List.map_map, eq_comm, ← List.forall₂_eq_eq_eq, List.forall₂_map_left_iff, List.forall₂_map_right_iff]
  exact haccepted.imp fun _ _ haccepted => (line_reread haccepted).symm

/-! ## The figures of a row -/

/-- The row has the tax amount and the amount of the figures, rounded by its columns. -/
def LineFigures.StoredIn (f : LineFigures) (row : LineValues) : Prop :=
  row.taxAmount.val = roundHalfUp 4 f.taxAmount ∧ row.lineAmount.val = roundHalfUp 4 f.amount

def ExactAmounts.StoredIn (a : ExactAmounts) (amounts : Amounts) : Prop :=
  amounts.subtotal.val = roundHalfUp 4 a.subtotal ∧ amounts.discount.val = roundHalfUp 4 a.discount ∧
    amounts.tax.val = roundHalfUp 4 a.tax ∧ amounts.total.val = roundHalfUp 4 a.total

theorem ExactAmounts.toRow_storedIn {a : ExactAmounts} {amounts : Amounts} (h : a.toRow = .ok amounts) :
    a.StoredIn amounts := by
  simp only [ExactAmounts.toRow, bind_eq_ok, pure_eq_ok] at h
  obtain ⟨_, hsubtotal, _, hdiscount, _, htax, _, htotal, rfl⟩ := h
  exact ⟨val_of_store hsubtotal, val_of_store hdiscount, val_of_store htax, val_of_store htotal⟩

theorem ExactAmounts.ofLines_eq (ls : List LineDraft) :
    ExactAmounts.ofLines ls = .ofFigures (ls.map LineDraft.figures) := by
  simp only [ExactAmounts.ofLines, ExactAmounts.ofFigures, List.map_map]
  rfl

/-- The row has every figure, rounded by its column. -/
structure LineFigures.RowOf (f : LineFigures) (row : LineValues) : Prop where
  quantity : row.quantity.val = roundHalfUp 3 f.quantity
  unitPrice : row.unitPrice.val = roundHalfUp 4 f.unitPrice
  discount : row.discountAmount.val = roundHalfUp 4 f.discount
  taxRate : row.taxRate.val = roundHalfUp 4 f.taxRate
  storedIn : f.StoredIn row

theorem chargeRowsFrom_rowOf {lineNo : ℕ} {ls : List ChargeLineDraft} {rows : List ChargeLine}
    (h : chargeRowsFrom lineNo ls = .ok rows) : List.Forall₂ LineFigures.RowOf
      (ls.map ChargeLineDraft.toLineFigures) (rows.map ChargeLine.toLineValues) := by
  induction ls generalizing lineNo rows with
  | nil => cases h; exact .nil
  | cons l ls ih =>
    simp only [chargeRowsFrom, bind_eq_ok, pure_eq_ok] at h
    obtain ⟨row, hrow, rows, hrows, rfl⟩ := h
    refine .cons ?_ (ih hrows)
    simp only [ChargeLineDraft.row, bind_eq_ok, pure_eq_ok] at hrow
    obtain ⟨_, hquantity, _, hprice, _, hdiscount, _, hrate, _, htax, _, hamount, rfl⟩ := hrow
    exact ⟨val_of_store hquantity, val_of_store hprice, val_of_store hdiscount, val_of_store hrate, val_of_store htax,
      val_of_store hamount⟩

theorem rowsFrom_figuresRowOf {lineNo : ℕ} {ls : List LineDraft} {rows : List DocumentLine}
    (h : rowsFrom lineNo ls = .ok rows) : List.Forall₂ LineFigures.RowOf
      (ls.map LineDraft.figures) (rows.map DocumentLine.toLineValues) := by
  induction ls generalizing lineNo rows with
  | nil => cases h; exact .nil
  | cons l ls ih =>
    simp only [rowsFrom, bind_eq_ok, pure_eq_ok] at h
    obtain ⟨row, hrow, rows, hrows, rfl⟩ := h
    refine .cons ?_ (ih hrows)
    simp only [LineDraft.row, bind_eq_ok, pure_eq_ok] at hrow
    obtain ⟨_, hquantity, _, hprice, _, hdiscount, _, hrate, _, htax, _, hamount, rfl⟩ := hrow
    exact ⟨val_of_store hquantity, val_of_store hprice, val_of_store hdiscount, val_of_store hrate, val_of_store htax,
      val_of_store hamount⟩

/-! ## When the figures survive -/

/-- The money columns of the lines. -/
def ServiceOrderCharge.values (c : ServiceOrderCharge) : List LineValues := c.lines.map ChargeLine.toLineValues
def Document.values (d : Document) : List LineValues := d.lines.map DocumentLine.toLineValues

/-- The same tax amount and amount in every line, and the same subtotal, discount, tax and total. -/
def SameFigures (lines lines' : List LineValues) (amounts amounts' : Amounts) : Prop :=
  lines'.map (fun l => (l.taxAmount, l.lineAmount)) = lines.map (fun l => (l.taxAmount, l.lineAmount)) ∧
    amounts' = amounts

instance (lines lines' : List LineValues) (amounts amounts' : Amounts) :
    Decidable (SameFigures lines lines' amounts amounts') :=
  inferInstanceAs (Decidable (_ ∧ _))

instance (f : LineFigures) (row : LineValues) : Decidable (f.StoredIn row) := inferInstanceAs (Decidable (_ ∧ _))

instance (a : ExactAmounts) (amounts : Amounts) : Decidable (a.StoredIn amounts) :=
  inferInstanceAs (Decidable (_ ∧ _ ∧ _ ∧ _))

/-- What is stored is what its own rates give: on every line the tax is the stored rate of the price less
the discount, and the four amounts are the sums of such lines. -/
def RateCarriesFigures (lines : List LineValues) (amounts : Amounts) : Prop :=
  (∀ l ∈ lines, l.reread.StoredIn l) ∧ (ExactAmounts.ofFigures (lines.map LineValues.reread)).StoredIn amounts

instance (lines : List LineValues) (amounts : Amounts) : Decidable (RateCarriesFigures lines amounts) :=
  inferInstanceAs (Decidable (_ ∧ _))

theorem LineFigures.StoredIn.same_iff {f : LineFigures} {row row' : LineValues} (h : f.StoredIn row') :
    (row'.taxAmount, row'.lineAmount) = (row.taxAmount, row.lineAmount) ↔ f.StoredIn row := by
  rw [Prod.mk.injEq, Numeric.ext_iff, Numeric.ext_iff, h.1, h.2]
  exact and_congr eq_comm eq_comm

theorem ExactAmounts.StoredIn.same_iff {a : ExactAmounts} {amounts amounts' : Amounts} (h : a.StoredIn amounts') :
    amounts' = amounts ↔ a.StoredIn amounts := by
  obtain ⟨hsubtotal, hdiscount, htax, htotal⟩ := h
  constructor
  · rintro rfl
    exact ⟨hsubtotal, hdiscount, htax, htotal⟩
  · rintro ⟨hsubtotal', hdiscount', htax', htotal'⟩
    cases amounts
    cases amounts'
    simp only [Amounts.mk.injEq]
    exact ⟨Numeric.ext (hsubtotal.trans hsubtotal'.symm), Numeric.ext (hdiscount.trans hdiscount'.symm),
      Numeric.ext (htax.trans htax'.symm), Numeric.ext (htotal.trans htotal'.symm)⟩

theorem lines_same_iff {lines lines' : List LineValues}
    (h : List.Forall₂ LineFigures.StoredIn (lines.map LineValues.reread) lines') :
    lines'.map (fun l => (l.taxAmount, l.lineAmount)) = lines.map (fun l => (l.taxAmount, l.lineAmount)) ↔
      ∀ l ∈ lines, l.reread.StoredIn l := by
  induction lines generalizing lines' with
  | nil =>
    cases h
    simp
  | cons l lines ih =>
    cases h with
    | cons hl hrest =>
      rw [List.map_cons, List.map_cons, List.cons.injEq, ih hrest, hl.same_iff, List.forall_mem_cons]

/-- The rows and amounts of the read figures are the stored ones exactly when the rates carry them. -/
theorem sameFigures_iff {lines lines' : List LineValues} {amounts amounts' : Amounts}
    (hrows : List.Forall₂ LineFigures.StoredIn (lines.map LineValues.reread) lines')
    (hamounts : (ExactAmounts.ofFigures (lines.map LineValues.reread)).StoredIn amounts') :
    SameFigures lines lines' amounts amounts' ↔ RateCarriesFigures lines amounts :=
  and_congr (lines_same_iff hrows) hamounts.same_iff

/-! ## Figures that come from a rate -/

/-- The numbers fit their columns and a double. -/
structure LineFigures.Fits (f : LineFigures) : Prop where
  quantity : Scaled 3 f.quantity
  unitPrice : Scaled 4 f.unitPrice
  discount : Scaled 4 f.discount
  taxRate : Scaled 4 f.taxRate
  unitPrice_lt : f.unitPrice < 10 ^ 11
  discount_lt : f.discount < 10 ^ 11

/-- The tax is the rate of the price less the discount. -/
structure LineFigures.ByRate (f : LineFigures) : Prop where
  fits : f.Fits
  valid : f.Valid
  base : f.base = mul f.quantity f.unitPrice
  taxAmount : f.taxAmount = div (mul (f.base - f.discount) f.taxRate) 100

theorem MoneyCells.Accepted.byRate {c : MoneyCells} {f : LineFigures} (h : c.Accepted f)
    (hrate : c.taxRate.given = true) (hfits : f.Fits) : f.ByRate := by
  obtain ⟨-, -, -, hbase, htax⟩ := MoneyCells.figures_eq_some.1 h.1
  simp only [TaxInput.resolved, hrate, if_true, Option.map_eq_some_iff, Prod.mk.injEq] at htax
  obtain ⟨rate, -, htax, rfl⟩ := htax
  exact ⟨hfits, h.2, hbase, htax.symm⟩

theorem LineFigures.ByRate.reread_eq {f : LineFigures} (h : f.ByRate) {row : LineValues} (hrow : f.RowOf row) :
    row.reread = f := by
  have hquantity : row.quantity.val = f.quantity := hrow.quantity.trans (roundHalfUp_of_scaled h.fits.quantity)
  have hprice : row.unitPrice.val = f.unitPrice := hrow.unitPrice.trans (roundHalfUp_of_scaled h.fits.unitPrice)
  have hdiscount : row.discountAmount.val = f.discount := hrow.discount.trans (roundHalfUp_of_scaled h.fits.discount)
  have hrate : row.taxRate.val = f.taxRate := hrow.taxRate.trans (roundHalfUp_of_scaled h.fits.taxRate)
  have hquantity_lt : f.quantity < 10 ^ 9 := hquantity ▸ (le_abs_self _).trans_lt row.quantity.bounded
  have hjsonQuantity := jsonNumber_of_scaled h.fits.quantity h.valid.quantity.le (by linarith)
  have hjsonPrice := jsonNumber_of_scaled h.fits.unitPrice h.valid.unitPrice (by linarith [h.fits.unitPrice_lt])
  have hjsonDiscount := jsonNumber_of_scaled h.fits.discount h.valid.discount (by linarith [h.fits.discount_lt])
  have hjsonRate := jsonNumber_of_scaled h.fits.taxRate h.valid.taxRate (by linarith [h.valid.taxRate_le])
  simp only [LineValues.reread, hquantity, hprice, hdiscount, hrate, hjsonQuantity, hjsonPrice, hjsonDiscount, hjsonRate,
    if_neg h.valid.quantity.ne', ← h.base, ← h.taxAmount]

theorem forall_byRate {α β : Type} {cells : α → MoneyCells} {figures : β → LineFigures} {lines : List α} {drafts : List β}
    (h : List.Forall₂ (fun line draft => (cells line).Accepted (figures draft)) lines drafts)
    (hrate : ∀ line ∈ lines, (cells line).taxRate.given = true ∧ ∀ f, (cells line).Accepted f → f.Fits) :
    ∀ f ∈ drafts.map figures, f.ByRate := by
  induction h with
  | nil => simp
  | cons haccepted _ ih =>
    rw [List.forall_mem_cons] at hrate
    rw [List.map_cons, List.forall_mem_cons]
    exact ⟨haccepted.byRate hrate.1.1 (hrate.1.2 _ haccepted), ih hrate.2⟩

theorem rateCarriesFigures_of_byRate {figures : List LineFigures} {rows : List LineValues} {amounts : Amounts}
    (hrate : ∀ f ∈ figures, f.ByRate) (hrows : List.Forall₂ LineFigures.RowOf figures rows)
    (hamounts : (ExactAmounts.ofFigures figures).StoredIn amounts) : RateCarriesFigures rows amounts := by
  have hreread : rows.map LineValues.reread = figures ∧ ∀ l ∈ rows, l.reread.StoredIn l := by
    clear hamounts
    induction hrows with
    | nil => simp
    | cons hrow hrows ih =>
      rw [List.forall_mem_cons] at hrate
      obtain ⟨ihmap, ihstored⟩ := ih hrate.2
      rw [List.map_cons, hrate.1.reread_eq hrow, ihmap, List.forall_mem_cons, hrate.1.reread_eq hrow]
      exact ⟨rfl, hrow.storedIn, ihstored⟩
  exact ⟨hreread.2, hreread.1 ▸ hamounts⟩

/-- **Lines that are entered by rate survive**, where their numbers fit. -/
theorem chargePricing_carries {db : Db} {orderId : ℕ} {field : String} {lines : List ChargeLinePayload}
    {amounts : Amounts} {rows : List ChargeLine} (h : chargePricing db orderId field lines = .ok (amounts, rows))
    (hrate : ∀ line ∈ lines, line.cells.taxRate.given = true ∧ ∀ f, line.cells.Accepted f → f.Fits) :
    RateCarriesFigures (rows.map ChargeLine.toLineValues) amounts := by
  simp only [chargePricing, bind_eq_ok, pure_eq_ok, Prod.mk.injEq] at h
  obtain ⟨drafts, hdrafts, _, hrows, _, hamounts, rfl, rfl⟩ := h
  exact rateCarriesFigures_of_byRate (forall_byRate (chargeDraftsFrom_accepted hdrafts) hrate)
    (chargeRowsFrom_rowOf hrows) (ExactAmounts.toRow_storedIn hamounts)

theorem documentTotals_carries {db : Db} {p : DocumentPayload} {lines : List LinePayload} {rate : ℚ} {precision : ℕ}
    {amounts baseAmounts : Amounts} {rows : List DocumentLine}
    (h : documentTotals db p lines rate precision = .ok (amounts, baseAmounts, rows))
    (hrate : ∀ line ∈ lines, line.cells.taxRate.given = true ∧ ∀ f, line.cells.Accepted f → f.Fits) :
    RateCarriesFigures (rows.map DocumentLine.toLineValues) amounts := by
  obtain ⟨⟨drafts, hdrafts, hrows, hamounts, -⟩⟩ := documentTotals_spec h
  have hsums := ExactAmounts.toRow_storedIn hamounts
  rw [ExactAmounts.ofLines_eq] at hsums
  exact rateCarriesFigures_of_byRate (forall_byRate (draftLinesFrom_accepted hdrafts) hrate)
    (rowsFrom_figuresRowOf hrows) hsums

/-! ## Sending a charge or a document back -/

/-- What the body's lines decide is all that an update of a charge takes from them. -/
theorem saveCharge_lines {env : Env} {db db' : Db} {p : ChargePayload} {orderIdentifier : Option String} {id saved : ℕ}
    {c : ServiceOrderCharge} {field : String} {lines : List ChargeLinePayload} (hc : db.charges.get? id = some c)
    (hid : p.id = .value id) (hlines : p.lineField = some (field, .value lines))
    (h : saveCharge env db p orderIdentifier = .ok (db', saved)) :
    ∃ orderId c', db'.charges.get? id = some c' ∧ chargePricing db orderId field lines = .ok (c'.amounts, c'.lines) := by
  have hstored : storedCharge db p = some (id, c) := Table.bind_get?_eq_some.2 ⟨by rw [hid]; rfl, hc⟩
  simp only [saveCharge, hstored, bind_eq_ok, require_eq_ok, check_eq_ok, pure_eq_ok, applyChargeBody, sentLines, hlines,
    rowsOf] at h
  obtain ⟨_, -, currency, -, identifier, -, ⟨orderId, order⟩, -, _, -, _, -, c', ⟨⟨amounts, rows⟩, ⟨ls, ⟨_, -, rfl⟩,
    hpricing⟩, rfl⟩, hdb⟩ := h
  cases hdb
  exact ⟨orderId, _, by rw [Table.get?_modify_self, hc]; rfl, hpricing⟩

theorem saveCharge_sentBack {env : Env} {db db' : Db} {p : ChargePayload} {orderIdentifier : Option String}
    {id saved : ℕ} {c : ServiceOrderCharge} {field : String} (hc : db.charges.get? id = some c) (hid : p.id = .value id)
    (hlines : p.lineField = some (field, .value (c.lines.map (chargeLinePayload db))))
    (h : saveCharge env db p orderIdentifier = .ok (db', saved)) :
    ∃ c', db'.charges.get? id = some c' ∧
      (SameFigures c.values c'.values c.amounts c'.amounts ↔ RateCarriesFigures c.values c.amounts) := by
  obtain ⟨orderId, c', hc', hpricing⟩ := saveCharge_lines hc hid hlines h
  simp only [chargePricing, bind_eq_ok, pure_eq_ok, Prod.mk.injEq] at hpricing
  obtain ⟨drafts, hdrafts, rows, hrows, amounts, hamounts, rfl, rfl⟩ := hpricing
  have hreread := chargeDraftsFrom_reread hdrafts
  have hstored := (chargeRowsFrom_rowOf hrows).imp fun _ _ hrow => hrow.storedIn
  have hsums := ExactAmounts.toRow_storedIn hamounts
  rw [hreread] at hstored hsums
  exact ⟨c', hc', sameFigures_iff hstored hsums⟩

theorem saveDocument_sentBack {env : Env} {db db' : Db} {p : DocumentPayload} {id saved : ℕ} {d : Document}
    (hd : db.documents.get? id = some d) (hid : p.id = .value id)
    (hlines : p.lines = .value (d.lines.map (linePayload db d.documentType)))
    (h : saveDocument env db p = .ok (db', saved)) :
    ∃ d', db'.documents.get? id = some d' ∧
      (SameFigures d.values d'.values d.amounts d'.amounts ↔ RateCarriesFigures d.values d.amounts) := by
  have hstored : storedDocument db p = some (id, d) := storedDocument_eq_some.2 ⟨by rw [hid]; rfl, hd⟩
  obtain ⟨s, header, hsave⟩ := saveDocument_spec h
  have hget := saveDocument_get? hsave
  have hsaved : saved = id := by
    rcases hsave with ⟨hnone, -⟩ | ⟨_, hsome, -⟩
    · rw [hstored] at hnone
      cases hnone
    · rw [hstored, Option.some.injEq, Prod.mk.injEq] at hsome
      exact hsome.1.symm
  subst hsaved
  obtain ⟨⟨drafts, hdrafts, hrows, hamounts, -⟩⟩ := documentTotals_spec s.totals_ok
  have hsent := s.lines_ok
  simp only [hlines, rowsOf, bind_eq_ok, pure_eq_ok] at hsent
  obtain ⟨_, -, hsent⟩ := hsent
  rw [← hsent] at hdrafts
  have hreread := draftLinesFrom_reread hdrafts
  have hstored := (rowsFrom_figuresRowOf hrows).imp fun _ _ hrow => hrow.storedIn
  have hsums := ExactAmounts.toRow_storedIn hamounts
  rw [hreread] at hstored
  rw [ExactAmounts.ofLines_eq, hreread] at hsums
  exact ⟨_, hget, sameFigures_iff hstored hsums⟩

/-- **The figures of a charge or a document that is sent back as it was read.** -/
theorem tax_round_trip (env : Env) (db : Db) :
    (∀ (p : ChargePayload) (orderIdentifier : Option String) (id : ℕ) (c : ServiceOrderCharge) (field : String)
      (r : Db × ℕ), db.charges.get? id = some c → p.id = .value id →
      p.lineField = some (field, .value (c.lines.map (chargeLinePayload db))) →
      saveCharge env db p orderIdentifier = .ok r →
      ∃ c', r.1.charges.get? id = some c' ∧
        (SameFigures c.values c'.values c.amounts c'.amounts ↔ RateCarriesFigures c.values c.amounts)) ∧
    (∀ (p : DocumentPayload) (id : ℕ) (d : Document) (r : Db × ℕ), db.documents.get? id = some d → p.id = .value id →
      p.lines = .value (d.lines.map (linePayload db d.documentType)) → saveDocument env db p = .ok r →
      ∃ d', r.1.documents.get? id = some d' ∧
        (SameFigures d.values d'.values d.amounts d'.amounts ↔ RateCarriesFigures d.values d.amounts)) := by
  constructor
  · rintro p orderIdentifier id c field ⟨db', saved⟩ hc hid hlines h
    exact saveCharge_sentBack hc hid hlines h
  · rintro p id d ⟨db', saved⟩ hd hid hlines h
    exact saveDocument_sentBack hd hid hlines h

/-! ## A tax that is entered as an amount -/

/-- The body that sends the lines of a charge, or of a document, back. -/
def ServiceOrderCharge.sentBack (db : Db) (id : ℕ) (c : ServiceOrderCharge) : ChargePayload :=
  { ChargePayload.empty with id := .value id, lines := .value (c.lines.map (chargeLinePayload db)) }

def Document.sentBack (db : Db) (id : ℕ) (d : Document) : DocumentPayload :=
  { DocumentPayload.empty with id := .value id, lines := .value (d.lines.map (linePayload db d.documentType)) }

/-- One line: its price, with a tax rate or a tax amount. -/
def pricedCharge (unitPrice : ℚ) (taxRate taxAmount : Field ℚ) : ChargePayload :=
  { ChargePayload.empty with
    lines := .value [{ ChargeLinePayload.empty with
      unitPrice := .value unitPrice, taxRate := taxRate, taxAmount := taxAmount }] }

def pricedInvoice (unitPrice : ℚ) (taxRate taxAmount : Field ℚ) : DocumentPayload :=
  .ofLines .customerInvoice [{ LinePayload.priced 1 unitPrice with taxRate := taxRate, taxAmount := taxAmount }]

/-- A tax of 10 % of 50 comes back as itself. -/
theorem tax_round_trip_tenth :
    (∃ r, saveCharge january (orderWith []) (pricedCharge 50 (.value 10) .absent) (some "SO-1") = .ok r ∧
      ∃ c, r.1.charges.get? 1 = some c ∧ ∃ r', saveCharge january r.1 (c.sentBack r.1 1) none = .ok r' ∧
        ∃ c', r'.1.charges.get? 1 = some c' ∧ SameFigures c.values c'.values c.amounts c'.amounts) ∧
    (∃ r, saveDocument january (Db.fresh usd) (pricedInvoice 50 (.value 10) .absent) = .ok r ∧
      ∃ d, r.1.documents.get? 1 = some d ∧ ∃ r', saveDocument january r.1 (d.sentBack r.1 1) = .ok r' ∧
        ∃ d', r'.1.documents.get? 1 = some d' ∧ SameFigures d.values d'.values d.amounts d'.amounts) := by
  constructor
  · obtain ⟨r, hsave, c, hc, hcarries, haccepted⟩ := okAnd_eq_true.1
      (show okAnd (saveCharge january (orderWith []) (pricedCharge 50 (.value 10) .absent) (some "SO-1")) (fun r =>
        ∃ c ∈ r.1.charges.get? 1, RateCarriesFigures c.values c.amounts ∧
          (saveCharge january r.1 (c.sentBack r.1 1) none).isOk = true) = true by decide +kernel)
    obtain ⟨r', hback⟩ := isOk_eq_true.1 haccepted
    obtain ⟨c', hc', hsame⟩ := (tax_round_trip january r.1).1 _ none 1 c "lines" r' hc rfl rfl hback
    exact ⟨r, hsave, c, hc, r', hback, c', hc', hsame.2 hcarries⟩
  · obtain ⟨r, hsave, d, hd, hcarries, haccepted⟩ := okAnd_eq_true.1
      (show okAnd (saveDocument january (Db.fresh usd) (pricedInvoice 50 (.value 10) .absent)) (fun r =>
        ∃ d ∈ r.1.documents.get? 1, RateCarriesFigures d.values d.amounts ∧
          (saveDocument january r.1 (d.sentBack r.1 1)).isOk = true) = true by decide +kernel)
    obtain ⟨r', hback⟩ := isOk_eq_true.1 haccepted
    obtain ⟨d', hd', hsame⟩ := (tax_round_trip january r.1).2 _ 1 d r' hd rfl rfl hback
    exact ⟨r, hsave, d, hd, r', hback, d', hd', hsame.2 hcarries⟩

/-- A tax of 100000 on 300000 is stored beside the rate 33.3333, and comes back as 99999.9. -/
theorem sent_back_tax_differs :
    (∃ r, saveCharge january (orderWith []) (pricedCharge 300000 .absent (.value 100000)) (some "SO-1") = .ok r ∧
      ∃ c, r.1.charges.get? 1 = some c ∧ ∃ r', saveCharge january r.1 (c.sentBack r.1 1) none = .ok r' ∧
        ∃ c', r'.1.charges.get? 1 = some c' ∧ c.amounts.tax.val = 100000 ∧ c'.amounts.tax.val = 99999 + 9 / 10 ∧
          ¬SameFigures c.values c'.values c.amounts c'.amounts) ∧
    (∃ r, saveDocument january (Db.fresh usd) (pricedInvoice 300000 .absent (.value 100000)) = .ok r ∧
      ∃ d, r.1.documents.get? 1 = some d ∧ ∃ r', saveDocument january r.1 (d.sentBack r.1 1) = .ok r' ∧
        ∃ d', r'.1.documents.get? 1 = some d' ∧ d.amounts.tax.val = 100000 ∧ d'.amounts.tax.val = 99999 + 9 / 10 ∧
          ¬SameFigures d.values d'.values d.amounts d'.amounts) := by
  constructor
  · obtain ⟨r, hsave, c, hc, h⟩ := okAnd_eq_true.1
      (show okAnd (saveCharge january (orderWith []) (pricedCharge 300000 .absent (.value 100000)) (some "SO-1"))
        (fun r => ∃ c ∈ r.1.charges.get? 1, okAnd (saveCharge january r.1 (c.sentBack r.1 1) none) (fun r' =>
          ∃ c' ∈ r'.1.charges.get? 1, c.amounts.tax.val = 100000 ∧ c'.amounts.tax.val = 99999 + 9 / 10 ∧
            ¬SameFigures c.values c'.values c.amounts c'.amounts) = true) = true by decide +kernel)
    obtain ⟨r', hback, c', hc', hdiffer⟩ := okAnd_eq_true.1 h
    exact ⟨r, hsave, c, hc, r', hback, c', hc', hdiffer⟩
  · obtain ⟨r, hsave, d, hd, h⟩ := okAnd_eq_true.1
      (show okAnd (saveDocument january (Db.fresh usd) (pricedInvoice 300000 .absent (.value 100000)))
        (fun r => ∃ d ∈ r.1.documents.get? 1, okAnd (saveDocument january r.1 (d.sentBack r.1 1)) (fun r' =>
          ∃ d' ∈ r'.1.documents.get? 1, d.amounts.tax.val = 100000 ∧ d'.amounts.tax.val = 99999 + 9 / 10 ∧
            ¬SameFigures d.values d'.values d.amounts d'.amounts) = true) = true by decide +kernel)
    obtain ⟨r', hback, d', hd', hdiffer⟩ := okAnd_eq_true.1 h
    exact ⟨r, hsave, d, hd, r', hback, d', hd', hdiffer⟩

end LcsSystem
