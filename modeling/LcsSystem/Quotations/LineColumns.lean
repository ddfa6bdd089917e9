import LcsSystem.Operations.LineReadings
import LcsSystem.Quotations.RevisionNumbers
import LcsSystem.Quotations.RollUp

/-!
# Money lines and their columns

What `_save_revision_children` (`src/backend/app/modules/quotations/service.py:318-396`), `save_charge`
(`modules/operations/service.py:1089-1155`) and `save_document` (`modules/finance/service.py:1031-1085`) accept, and what
the columns of a line take. The schemas of the lines have no maximum for a quantity, a price or an amount, and a discount
of a quotation line is also written to `discount_rate`, a `Numeric(7, 4)`.
-/

namespace LcsSystem
open DecimalArith Checks

/-! ## What a line writes -/

/-- Every number of a charge or document line fits its column. -/
structure LineFigures.FitColumns (f : LineFigures) : Prop where
  quantity : InColumn 12 3 f.quantity
  unitPrice : InColumn 19 4 f.unitPrice
  discount : InColumn 19 4 f.discount
  taxRate : InColumn 7 4 f.taxRate
  taxAmount : InColumn 19 4 f.taxAmount
  amount : InColumn 19 4 f.amount

/-- Every number of a quotation line fits its column. -/
structure PricedLine.FitColumns (l : PricedLine) : Prop where
  quantity : InColumn 12 3 l.quantity
  unitPrice : InColumn 19 4 l.unitPrice
  discountRate : InColumn 7 4 l.discount
  taxRate : InColumn 7 4 l.taxRate
  subtotal : InColumn 19 4 l.subtotal
  discount : InColumn 19 4 l.discount
  tax : InColumn 19 4 l.tax
  total : InColumn 19 4 l.total

/-! ## What is submitted -/

/-- The tax amount that the cells of a line ask for. -/
def TaxInput.amountOn (t : TaxInput) (taxable : ℚ) : ℚ :=
  if t.taxRate.given then div (mul taxable (t.taxRate.get?.getD 0)) 100
  else if t.taxAmount.given then t.taxAmount.get?.getD 0
  else if t.tax.given then div (mul taxable (t.tax.get?.getD 0)) 100
  else 0

/-- The cells of a charge or document line are small enough: the quantity, the price, the discount, and what is left of
the product after discount and tax. -/
def MoneyCells.SmallEnough (c : MoneyCells) : Prop :=
  let quantity := c.quantity.get?.getD 1
  let unitPrice := c.unitPrice.get?.getD 0
  let discount := c.discount.get?.getD 0
  let taxable := mul quantity unitPrice - discount
  roundHalfUp 3 quantity < 10 ^ 9 ∧ roundHalfUp 4 unitPrice < 10 ^ 15 ∧ roundHalfUp 4 discount < 10 ^ 15 ∧
    roundHalfUp 4 (taxable + c.toTaxInput.amountOn taxable) < 10 ^ 15

instance (c : MoneyCells) : Decidable c.SmallEnough := inferInstanceAs (Decidable (_ ∧ _ ∧ _ ∧ _))

/-- The tax of a quotation line in cents. -/
def PricingLinePayload.taxOn (line : PricingLinePayload) (taxable : ℚ) : ℚ :=
  if line.taxRate.given then money (div (mul taxable (line.taxRate.get?.getD 0)) 100)
  else money ((if line.taxAmount.sent then line.taxAmount else line.tax).get?.getD 0)

/-- The cells of a quotation line are small enough: the discount is below 1000. -/
def PricingLinePayload.SmallEnough (line : PricingLinePayload) : Prop :=
  let quantity := line.quantity.get?.getD 1
  let unitPrice := (if line.unitPrice.given then line.unitPrice else line.unitAmount).get?.getD 0
  let discount := money ((if line.discountAmount.sent then line.discountAmount else line.discount).get?.getD 0)
  let subtotal := money (mul quantity unitPrice)
  roundHalfUp 3 quantity < 10 ^ 9 ∧ roundHalfUp 4 unitPrice < 10 ^ 15 ∧ discount < 1000 ∧ subtotal < 10 ^ 15 ∧
    subtotal - discount + line.taxOn (max 0 (subtotal - discount)) < 10 ^ 15

instance (line : PricingLinePayload) : Decidable line.SmallEnough := inferInstanceAs (Decidable (_ ∧ _ ∧ _ ∧ _ ∧ _))

/-! ## Cells that were read -/

section
variable {f : Field ℚ} {default q : ℚ} {places : ℕ}

theorem Field.getD_of_number (h : f.number default places = some q) : f.get?.getD default = q := by
  cases f with
  | absent | blank => simpa [Field.number, Field.get?] using h
  | malformed => cases h
  | value x =>
    simp only [Field.number, Option.ite_none_right_eq_some, Option.some.injEq] at h
    exact h.2

theorem TaxInput.amountOn_of_resolved {t : TaxInput} {taxable : ℚ} {tax : ℚ × ℚ} (h : t.resolved taxable = some tax) :
    t.amountOn taxable = tax.1 := by
  unfold TaxInput.resolved at h
  unfold TaxInput.amountOn
  split at h
  · obtain ⟨rate, hrate, rfl⟩ := Option.map_eq_some_iff.1 h
    rw [if_pos ‹_›, Field.getD_of_number hrate]
  · rw [if_neg ‹_›]
    split at h
    · obtain ⟨amount, hamount, rfl⟩ := Option.map_eq_some_iff.1 h
      rw [if_pos ‹_›, Field.getD_of_number hamount]
    · rw [if_neg ‹_›]
      split at h
      · obtain ⟨rate, hrate, rfl⟩ := Option.map_eq_some_iff.1 h
        rw [if_pos ‹_›, Field.getD_of_number hrate]
      · cases h
        rw [if_neg ‹_›]

end

/-! ## Charge and document lines -/

theorem scaled_hundredPercent (s : ℕ) : Scaled s 100 := scaled_iff.2 ⟨100 * 10 ^ s, by push_cast; rfl⟩

/-- A rate that was accepted fits its column. -/
theorem inColumn_taxRate {rate : ℚ} (hrate : 0 ≤ rate) (hle : rate ≤ 100) : InColumn 7 4 rate :=
  inColumn_of_le (scaled_hundredPercent 4) (by norm_num) hrate hle

theorem LineFigures.fits_iff {f : LineFigures} (hvalid : f.Valid) : f.FitColumns ↔
    roundHalfUp 3 f.quantity < 10 ^ 9 ∧ roundHalfUp 4 f.unitPrice < 10 ^ 15 ∧ roundHalfUp 4 f.discount < 10 ^ 15 ∧
      roundHalfUp 4 f.amount < 10 ^ 15 := by
  have hamount : f.taxAmount ≤ f.amount := by
    have hle := hvalid.discount_le
    unfold LineFigures.amount
    linarith
  have hamount_nonneg := hvalid.taxAmount.trans hamount
  constructor
  · intro h
    exact ⟨(inColumn_of_nonneg hvalid.quantity.le).1 h.quantity, (inColumn_of_nonneg hvalid.unitPrice).1 h.unitPrice,
      (inColumn_of_nonneg hvalid.discount).1 h.discount, (inColumn_of_nonneg hamount_nonneg).1 h.amount⟩
  · rintro ⟨hquantity, hprice, hdiscount, htotal⟩
    have hfits : InColumn 19 4 f.amount := (inColumn_of_nonneg hamount_nonneg).2 htotal
    exact ⟨(inColumn_of_nonneg hvalid.quantity.le).2 hquantity, (inColumn_of_nonneg hvalid.unitPrice).2 hprice,
      (inColumn_of_nonneg hvalid.discount).2 hdiscount, inColumn_taxRate hvalid.taxRate hvalid.taxRate_le,
      hfits.mono hvalid.taxAmount hamount, hfits⟩

theorem MoneyCells.Accepted.fits_iff {c : MoneyCells} {f : LineFigures} (h : c.Accepted f) : f.FitColumns ↔ c.SmallEnough := by
  obtain ⟨hfigures, hvalid⟩ := h
  obtain ⟨hquantity, hprice, hdiscount, hbase, htax⟩ := MoneyCells.figures_eq_some.1 hfigures
  rw [LineFigures.fits_iff hvalid, MoneyCells.SmallEnough, Field.getD_of_number hquantity, Field.getD_of_number hprice,
    Field.getD_of_number hdiscount]
  simp only [← hbase, TaxInput.amountOn_of_resolved htax]
  rfl

/-! ## Quotation lines -/

section
variable {db : QuotationDb} {index : ℕ} {line : PricingLinePayload} {l : PricedLine}

theorem taxOn_of_pricedTax {taxable : ℚ} {pre : String} {tax : ℚ × ℚ} (h : pricedTax line taxable pre = .ok tax) :
    line.taxOn taxable = tax.1 := by
  unfold pricedTax at h
  unfold PricingLinePayload.taxOn
  split at h
  · simp only [bind_eq_ok, pure_eq_ok, parseDecimal_eq_ok] at h
    obtain ⟨rate, hrate, rfl⟩ := h
    rw [if_pos ‹_›, Field.getD_of_number hrate]
  · simp only [bind_eq_ok, pure_eq_ok, parseDecimal_eq_ok] at h
    obtain ⟨amount, hamount, rfl⟩ := h
    rw [if_neg ‹_›, Field.getD_of_number hamount]

/-- The bounds that a line was checked against. -/
structure PricedLine.Bounded (l : PricedLine) : Prop extends l.Checked where
  quantity_pos : 0 < l.quantity
  unitPrice_nonneg : 0 ≤ l.unitPrice
  taxRate_nonneg : 0 ≤ l.taxRate
  taxRate_le : l.taxRate ≤ 100

theorem pricedLine_bounded (h : pricedLine db index line = .ok l) : l.Bounded := by
  have hchecked := pricedLine_checked h
  simp only [pricedLine, bind_eq_ok, check_eq_ok, pure_eq_ok] at h
  obtain ⟨quantity, -, unitPrice, -, entered, -, tax, -, _, herrors, rfl⟩ := h
  simp only [pricedLineErrors, addError_eq_nil, not_or, not_lt, not_le] at herrors
  obtain ⟨⟨⟨⟨⟨⟨-, hquantity⟩, hprice⟩, -⟩, -⟩, hrate, hle⟩, -⟩ := herrors
  exact { hchecked with quantity_pos := hquantity, unitPrice_nonneg := hprice, taxRate_nonneg := hrate, taxRate_le := hle }

theorem PricedLine.Bounded.fits_iff (h : l.Bounded) : l.FitColumns ↔ roundHalfUp 3 l.quantity < 10 ^ 9 ∧
    roundHalfUp 4 l.unitPrice < 10 ^ 15 ∧ l.discount < 1000 ∧ l.subtotal < 10 ^ 15 ∧
      l.subtotal - l.discount + l.tax < 10 ^ 15 := by
  obtain ⟨hsubtotal, hdiscount, htax⟩ := h.cents
  have hnonneg := h.discount_nonneg
  have hle := h.discount_le
  have htotal := h.toChecked.total_eq
  have htax_nonneg := h.tax_nonneg
  have htotal_nonneg : 0 ≤ l.total := by
    rw [htotal]
    linarith
  have hscaled : Scaled 2 l.total := htotal ▸ (hsubtotal.sub hdiscount).add htax
  constructor
  · intro hfits
    refine ⟨(inColumn_of_nonneg h.quantity_pos.le).1 hfits.quantity, (inColumn_of_nonneg h.unitPrice_nonneg).1 hfits.unitPrice,
      ?_, (inColumn_of_scaled hsubtotal (by decide) (hnonneg.trans hle)).1 hfits.subtotal, ?_⟩
    · have hrate := (inColumn_of_scaled hdiscount (by decide) hnonneg).1 hfits.discountRate
      norm_num at hrate
      exact hrate
    · rw [← htotal]
      exact (inColumn_of_scaled hscaled (by decide) htotal_nonneg).1 hfits.total
  · rintro ⟨hq, hp, hd, hs, ht⟩
    have hfits : InColumn 19 4 l.total := by
      rw [inColumn_of_scaled hscaled (by decide) htotal_nonneg, htotal]
      exact ht
    have hsum : InColumn 19 4 l.subtotal := (inColumn_of_scaled hsubtotal (by decide) (hnonneg.trans hle)).2 hs
    refine ⟨(inColumn_of_nonneg h.quantity_pos.le).2 hq, (inColumn_of_nonneg h.unitPrice_nonneg).2 hp, ?_,
      inColumn_taxRate h.taxRate_nonneg h.taxRate_le, hsum, hsum.mono hnonneg hle, hfits.mono htax_nonneg ?_, hfits⟩
    · rw [inColumn_of_scaled hdiscount (by decide) hnonneg]
      norm_num
      exact hd
    · rw [htotal]
      linarith

theorem pricedLine_fits_iff (h : pricedLine db index line = .ok l) : l.FitColumns ↔ line.SmallEnough := by
  rw [(pricedLine_bounded h).fits_iff]
  simp only [pricedLine, bind_eq_ok, check_eq_ok, pure_eq_ok, parseDecimal_eq_ok] at h
  obtain ⟨quantity, hquantity, unitPrice, hprice, entered, hentered, tax, htax, _, -, rfl⟩ := h
  rw [PricingLinePayload.SmallEnough, Field.getD_of_number hquantity, Field.getD_of_number hprice,
    Field.getD_of_number hentered, taxOn_of_pricedTax htax]

end

/-! ## The flush -/

theorem store_ok_iff {p s : ℕ} {x : ℚ} : (∃ y, store p s x = .ok y) ↔ InColumn p s x := by
  simp only [store_eq_ok, isSome_store?]

theorem PricedLine.row_ok_iff {l : PricedLine} {revisionId lineNo : ℕ} :
    (∃ row, l.row revisionId lineNo = .ok row) ↔ l.FitColumns := by
  simp only [PricedLine.row, bind_eq_ok, pure_eq_ok]
  constructor
  · rintro ⟨_, _, hq, _, hp, _, hdr, _, hr, _, hs, _, hd, _, ht, _, htotal, -⟩
    exact ⟨store_ok_iff.1 ⟨_, hq⟩, store_ok_iff.1 ⟨_, hp⟩, store_ok_iff.1 ⟨_, hdr⟩, store_ok_iff.1 ⟨_, hr⟩,
      store_ok_iff.1 ⟨_, hs⟩, store_ok_iff.1 ⟨_, hd⟩, store_ok_iff.1 ⟨_, ht⟩, store_ok_iff.1 ⟨_, htotal⟩⟩
  · intro h
    obtain ⟨_, hq⟩ := store_ok_iff.2 h.quantity
    obtain ⟨_, hp⟩ := store_ok_iff.2 h.unitPrice
    obtain ⟨_, hdr⟩ := store_ok_iff.2 h.discountRate
    obtain ⟨_, hr⟩ := store_ok_iff.2 h.taxRate
    obtain ⟨_, hs⟩ := store_ok_iff.2 h.subtotal
    obtain ⟨_, hd⟩ := store_ok_iff.2 h.discount
    obtain ⟨_, ht⟩ := store_ok_iff.2 h.tax
    obtain ⟨_, htotal⟩ := store_ok_iff.2 h.total
    exact ⟨_, _, hq, _, hp, _, hdr, _, hr, _, hs, _, hd, _, ht, _, htotal, rfl⟩

/-- The figures of a line in the columns that both tables have. -/
theorem LineFigures.stored_iff {f : LineFigures} :
    (∃ quantity unitPrice discount taxRate taxAmount amount, store 12 3 f.quantity = .ok quantity ∧
      storeMoney f.unitPrice = .ok unitPrice ∧ storeMoney f.discount = .ok discount ∧ store 7 4 f.taxRate = .ok taxRate ∧
      storeMoney f.taxAmount = .ok taxAmount ∧ storeMoney f.amount = .ok amount) ↔ f.FitColumns := by
  constructor
  · rintro ⟨_, _, _, _, _, _, hq, hp, hd, hr, ht, htotal⟩
    exact ⟨store_ok_iff.1 ⟨_, hq⟩, store_ok_iff.1 ⟨_, hp⟩, store_ok_iff.1 ⟨_, hd⟩, store_ok_iff.1 ⟨_, hr⟩,
      store_ok_iff.1 ⟨_, ht⟩, store_ok_iff.1 ⟨_, htotal⟩⟩
  · intro h
    obtain ⟨_, hq⟩ := store_ok_iff.2 h.quantity
    obtain ⟨_, hp⟩ := store_ok_iff.2 h.unitPrice
    obtain ⟨_, hd⟩ := store_ok_iff.2 h.discount
    obtain ⟨_, hr⟩ := store_ok_iff.2 h.taxRate
    obtain ⟨_, ht⟩ := store_ok_iff.2 h.taxAmount
    obtain ⟨_, htotal⟩ := store_ok_iff.2 h.amount
    exact ⟨_, _, _, _, _, _, hq, hp, hd, hr, ht, htotal⟩

theorem LineDraft.row_ok_iff {l : LineDraft} {lineNo : ℕ} : (∃ row, l.row lineNo = .ok row) ↔ l.figures.FitColumns := by
  rw [← LineFigures.stored_iff]
  simp only [LineDraft.row, bind_eq_ok, pure_eq_ok]
  constructor
  · rintro ⟨_, q, hq, p, hp, d, hd, r, hr, t, ht, a, ha, -⟩
    exact ⟨q, p, d, r, t, a, hq, hp, hd, hr, ht, ha⟩
  · rintro ⟨q, p, d, r, t, a, hq, hp, hd, hr, ht, ha⟩
    exact ⟨_, q, hq, p, hp, d, hd, r, hr, t, ht, a, ha, rfl⟩

theorem ChargeLineDraft.row_ok_iff {l : ChargeLineDraft} {lineNo : ℕ} :
    (∃ row, l.row lineNo = .ok row) ↔ l.toLineFigures.FitColumns := by
  rw [← LineFigures.stored_iff]
  simp only [ChargeLineDraft.row, bind_eq_ok, pure_eq_ok]
  constructor
  · rintro ⟨_, q, hq, p, hp, d, hd, r, hr, t, ht, a, ha, -⟩
    exact ⟨q, p, d, r, t, a, hq, hp, hd, hr, ht, ha⟩
  · rintro ⟨q, p, d, r, t, a, hq, hp, hd, hr, ht, ha⟩
    exact ⟨_, q, hq, p, hp, d, hd, r, hr, t, ht, a, ha, rfl⟩

/-- A flush of rows that are made one by one, each with its number. -/
theorem flush_ok_iff {α β : Type} (rowsFrom : ℕ → List α → Result (List β)) (row : ℕ → α → Result β) {P : α → Prop}
    (hnil : ∀ n, rowsFrom n [] = .ok [])
    (hcons : ∀ n a as, rowsFrom n (a :: as) = (do
      let b ← row n a
      let bs ← rowsFrom (n + 1) as
      return b :: bs))
    (hrow : ∀ n a, (∃ b, row n a = .ok b) ↔ P a) (n : ℕ) (as : List α) :
    (∃ bs, rowsFrom n as = .ok bs) ↔ ∀ a ∈ as, P a := by
  induction as generalizing n with
  | nil => simp [hnil]
  | cons a as ih =>
    rw [List.forall_mem_cons, ← ih (n + 1), ← hrow n a, hcons]
    simp only [bind_eq_ok, pure_eq_ok]
    constructor
    · rintro ⟨_, b, hb, bs, hbs, -⟩
      exact ⟨⟨b, hb⟩, bs, hbs⟩
    · rintro ⟨⟨b, hb⟩, bs, hbs⟩
      exact ⟨_, b, hb, bs, hbs, rfl⟩

/-! ## Whole bodies -/

/-- Lines that are read one by one, each with what holds of it as of its cells. -/
theorem forall_fits_iff {α β : Type} (readFrom : ℕ → List α → Result (List β)) (read : ℕ → α → Result β) {P : β → Prop}
    {Q : α → Prop} (hnil : ∀ n, readFrom n [] = .ok [])
    (hcons : ∀ n a as, readFrom n (a :: as) = (do
      let b ← read n a
      let bs ← readFrom (n + 1) as
      return b :: bs))
    (hread : ∀ n a b, read n a = .ok b → (P b ↔ Q a)) (n : ℕ) (as : List α) (bs : List β)
    (h : readFrom n as = .ok bs) : (∀ b ∈ bs, P b) ↔ ∀ a ∈ as, Q a := by
  induction as generalizing n bs with
  | nil =>
    rw [hnil] at h
    cases h
    simp
  | cons a as ih =>
    simp only [hcons, bind_eq_ok, pure_eq_ok] at h
    obtain ⟨b, hb, rest, hrest, rfl⟩ := h
    rw [List.forall_mem_cons, List.forall_mem_cons, hread n a b hb, ih (n + 1) rest hrest]

/-- One service at 2000 with a discount, taxed at 10 %. -/
def discountedService (discount : ℚ) : PricingLinePayload where
  feeTypeId := .absent
  feeType := .absent
  transportBy := .absent
  description := .value "Trucking"
  quantity := .value 1
  unitPrice := .value 2000
  unitAmount := .absent
  discount := .value discount
  discountAmount := .absent
  tax := .absent
  taxAmount := .absent
  taxRate := .value 10
  unit := .absent

end LcsSystem
