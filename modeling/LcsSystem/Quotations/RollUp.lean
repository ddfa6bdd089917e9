import LcsSystem.Quotations.FrozenRevisions

/-!
# Roll-ups

The four totals of a revision are the sums over its lines, and the total of a line follows from the three
amounts beside it, exactly on the stored columns. `RolledUp` says so of one revision. Lines are written by
`savePricingLines`, which derives all of them from one body, and by `cloneRevision`; no other write sees the
amounts of a revision or the lines under it.
-/

namespace LcsSystem
open Relational DecimalArith Checks

/-! ## Lines and totals -/

/-- The amounts of a stored line. -/
structure QuotationRevisionLine.Balanced (l : QuotationRevisionLine) : Prop where
  total : l.lineTotal.val = l.lineSubtotal.val - l.lineDiscount.val + l.lineTax.val
  discount_nonneg : 0 ≤ l.lineDiscount.val
  discount_le : l.lineDiscount.val ≤ l.lineSubtotal.val
  tax_nonneg : 0 ≤ l.lineTax.val

/-- The totals of a revision are the sums over its lines. -/
structure RolledUp (amounts : Amounts) (lines : List QuotationRevisionLine) : Prop where
  balanced : ∀ l ∈ lines, l.Balanced
  subtotal : amounts.subtotal.val = (lines.map fun l => l.lineSubtotal.val).sum
  discount : amounts.discount.val = (lines.map fun l => l.lineDiscount.val).sum
  tax : amounts.tax.val = (lines.map fun l => l.lineTax.val).sum
  lineTotals : amounts.total.val = (lines.map fun l => l.lineTotal.val).sum
  total : amounts.total.val = amounts.subtotal.val - amounts.discount.val + amounts.tax.val

theorem sum_lineTotal {lines : List QuotationRevisionLine} (h : ∀ l ∈ lines, l.Balanced) :
    (lines.map fun l => l.lineTotal.val).sum = (lines.map fun l => l.lineSubtotal.val).sum -
      (lines.map fun l => l.lineDiscount.val).sum + (lines.map fun l => l.lineTax.val).sum := by
  induction lines with
  | nil => simp
  | cons l lines ih =>
    rw [List.forall_mem_cons] at h
    simp only [List.map_cons, List.sum_cons, h.1.total, ih h.2]
    ring

/-- The total of the revision agrees with the other three, as those of its lines do. -/
theorem RolledUp.of_sums {amounts : Amounts} {lines : List QuotationRevisionLine} (hlines : ∀ l ∈ lines, l.Balanced)
    (subtotal : amounts.subtotal.val = (lines.map fun l => l.lineSubtotal.val).sum)
    (discount : amounts.discount.val = (lines.map fun l => l.lineDiscount.val).sum)
    (tax : amounts.tax.val = (lines.map fun l => l.lineTax.val).sum)
    (total : amounts.total.val = (lines.map fun l => l.lineTotal.val).sum) : RolledUp amounts lines where
  balanced := hlines
  subtotal := subtotal
  discount := discount
  tax := tax
  lineTotals := total
  total := by rw [total, subtotal, discount, tax, sum_lineTotal hlines]

theorem rolledUp_nil : RolledUp 0 [] := by
  refine .of_sums (by simp) ?_ ?_ ?_ ?_ <;> rfl

/-- A copy under another revision. -/
theorem RolledUp.copy {amounts : Amounts} {lines : List QuotationRevisionLine} (h : RolledUp amounts lines)
    (revisionId : ℕ) : RolledUp amounts (lines.map fun l => { l with quotationRevisionId := revisionId }) := by
  refine .of_sums ?_ ?_ ?_ ?_ ?_
  · intro l hl
    obtain ⟨source, hsource, rfl⟩ := List.mem_map.1 hl
    obtain ⟨htotal, hnonneg, hle, htax⟩ := h.balanced source hsource
    exact ⟨htotal, hnonneg, hle, htax⟩
  all_goals rw [List.map_map]
  · exact h.subtotal
  · exact h.discount
  · exact h.tax
  · exact h.lineTotals

/-! ## A saved body -/

/-- What the checks of a line established. -/
structure PricedLine.Checked (l : PricedLine) : Prop where
  cents : Scaled 2 l.subtotal ∧ Scaled 2 l.discount ∧ Scaled 2 l.tax
  discount_nonneg : 0 ≤ l.discount
  discount_le : l.discount ≤ l.subtotal
  tax_nonneg : 0 ≤ l.tax

theorem scaled_money (x : ℚ) : Scaled 2 (money x) := scaled_roundHalfUp 2 x

/-- Sums of cents are cents. -/
theorem money_of_scaled {x : ℚ} (h : Scaled 2 x) : money x = x := roundHalfUp_of_scaled h

theorem pricedTax_scaled {line : PricingLinePayload} {taxable : ℚ} {pre : String} {tax : ℚ × ℚ}
    (h : pricedTax line taxable pre = .ok tax) : Scaled 2 tax.1 := by
  unfold pricedTax at h
  split at h <;>
  · simp only [bind_eq_ok, pure_eq_ok] at h
    obtain ⟨_, -, rfl⟩ := h
    exact scaled_money _

theorem pricedLine_checked {db : QuotationDb} {index : ℕ} {line : PricingLinePayload} {l : PricedLine}
    (h : pricedLine db index line = .ok l) : l.Checked := by
  simp only [pricedLine, bind_eq_ok, check_eq_ok, pure_eq_ok] at h
  obtain ⟨quantity, -, unitPrice, -, entered, -, tax, htax, _, herrors, rfl⟩ := h
  simp only [pricedLineErrors, addError_eq_nil, not_or, not_lt] at herrors
  obtain ⟨⟨⟨⟨-, hdiscount, hle⟩, htax_nonneg⟩, -⟩, -⟩ := herrors
  exact ⟨⟨scaled_money _, scaled_money _, pricedTax_scaled htax⟩, hdiscount, hle, htax_nonneg⟩

theorem pricedLinesFrom_checked {db : QuotationDb} {index : ℕ} {payloads : List PricingLinePayload} {ls : List PricedLine}
    (h : pricedLinesFrom db index payloads = .ok ls) : ∀ l ∈ ls, l.Checked := by
  induction payloads generalizing index ls with
  | nil =>
    cases h
    simp
  | cons payload payloads ih =>
    simp only [pricedLinesFrom, bind_eq_ok, pure_eq_ok] at h
    obtain ⟨l, hl, rest, hrest, rfl⟩ := h
    exact List.forall_mem_cons.2 ⟨pricedLine_checked hl, ih hrest⟩

theorem storeMoney_val_of_scaled {x : ℚ} {m : Money} (hx : Scaled 2 x) (h : storeMoney x = .ok m) : m.val = x :=
  (val_of_store h).trans (roundHalfUp_of_scaled (hx.mono (by decide)))

theorem PricedLine.Checked.total_eq {l : PricedLine} (h : l.Checked) : l.total = l.subtotal - l.discount + l.tax :=
  money_of_scaled ((h.cents.1.sub h.cents.2.1).add h.cents.2.2)

/-- The columns of a row hold the amounts of its line, unrounded. -/
theorem PricedLine.Checked.row_val {l : PricedLine} (h : l.Checked) {revisionId lineNo : ℕ} {row : QuotationRevisionLine}
    (hrow : l.row revisionId lineNo = .ok row) :
    row.lineSubtotal.val = l.subtotal ∧ row.lineDiscount.val = l.discount ∧ row.lineTax.val = l.tax ∧
      row.lineTotal.val = l.total := by
  simp only [PricedLine.row, bind_eq_ok, pure_eq_ok] at hrow
  obtain ⟨_, -, _, -, _, -, _, -, subtotal, hsubtotal, discount, hdiscount, tax, htax, total, htotal, rfl⟩ := hrow
  exact ⟨storeMoney_val_of_scaled h.cents.1 hsubtotal, storeMoney_val_of_scaled h.cents.2.1 hdiscount,
    storeMoney_val_of_scaled h.cents.2.2 htax, storeMoney_val_of_scaled (scaled_money _) htotal⟩

theorem PricedLine.Checked.row_balanced {l : PricedLine} (h : l.Checked) {revisionId lineNo : ℕ}
    {row : QuotationRevisionLine} (hrow : l.row revisionId lineNo = .ok row) : row.Balanced := by
  obtain ⟨hsubtotal, hdiscount, htax, htotal⟩ := h.row_val hrow
  refine ⟨?_, ?_, ?_, ?_⟩
  · rw [htotal, hsubtotal, hdiscount, htax, h.total_eq]
  · rw [hdiscount]
    exact h.discount_nonneg
  · rw [hdiscount, hsubtotal]
    exact h.discount_le
  · rw [htax]
    exact h.tax_nonneg

theorem pricedRowsFrom_balanced {revisionId lineNo : ℕ} {ls : List PricedLine} {rows : List QuotationRevisionLine}
    (hls : ∀ l ∈ ls, l.Checked) (h : pricedRowsFrom revisionId lineNo ls = .ok rows) :
    (∀ row ∈ rows, row.Balanced) ∧ (rows.map fun r => r.lineSubtotal.val) = ls.map PricedLine.subtotal ∧
      (rows.map fun r => r.lineDiscount.val) = ls.map PricedLine.discount ∧
      (rows.map fun r => r.lineTax.val) = ls.map PricedLine.tax ∧
      (rows.map fun r => r.lineTotal.val) = ls.map PricedLine.total := by
  induction ls generalizing lineNo rows with
  | nil =>
    cases h
    simp
  | cons l ls ih =>
    simp only [pricedRowsFrom, bind_eq_ok, pure_eq_ok] at h
    obtain ⟨row, hrow, rest, hrest, rfl⟩ := h
    rw [List.forall_mem_cons] at hls
    obtain ⟨hbalanced, hsubtotals, hdiscounts, htaxes, htotals⟩ := ih hls.2 hrest
    obtain ⟨hsubtotal, hdiscount, htax, htotal⟩ := hls.1.row_val hrow
    refine ⟨List.forall_mem_cons.2 ⟨hls.1.row_balanced hrow, hbalanced⟩, ?_⟩
    simp only [List.map_cons, hsubtotal, hdiscount, htax, htotal, hsubtotals, hdiscounts, htaxes, htotals, and_self]

/-- A sum of cents is stored as it is. -/
theorem storeMoney_sum {ls : List PricedLine} {f : PricedLine → ℚ} (hf : ∀ l ∈ ls, Scaled 2 (f l)) {m : Money}
    (h : storeMoney (money (ls.map f).sum) = .ok m) : m.val = (ls.map f).sum := by
  have hsum : Scaled 2 (ls.map f).sum := by
    refine Scaled.sum fun x hx => ?_
    obtain ⟨l, hl, rfl⟩ := List.mem_map.1 hx
    exact hf l hl
  rw [storeMoney_val_of_scaled (scaled_money _) h, money_of_scaled hsum]

/-- **The rows of a body roll up** to the totals that are written beside them. -/
theorem pricedAmounts_rolledUp {revisionId lineNo : ℕ} {ls : List PricedLine} {rows : List QuotationRevisionLine}
    {amounts : Amounts} (hls : ∀ l ∈ ls, l.Checked) (hrows : pricedRowsFrom revisionId lineNo ls = .ok rows)
    (h : pricedAmounts ls = .ok amounts) : RolledUp amounts rows := by
  obtain ⟨hbalanced, hsubtotals, hdiscounts, htaxes, htotals⟩ := pricedRowsFrom_balanced hls hrows
  simp only [pricedAmounts, bind_eq_ok, pure_eq_ok] at h
  obtain ⟨subtotal, hsubtotal, discount, hdiscount, tax, htax, total, htotal, rfl⟩ := h
  refine .of_sums hbalanced ?_ ?_ ?_ ?_
  · rw [hsubtotals]
    exact storeMoney_sum (fun l hl => (hls l hl).cents.1) hsubtotal
  · rw [hdiscounts]
    exact storeMoney_sum (fun l hl => (hls l hl).cents.2.1) hdiscount
  · rw [htaxes]
    exact storeMoney_sum (fun l hl => (hls l hl).cents.2.2) htax
  · rw [htotals]
    exact storeMoney_sum (fun l _ => scaled_money _) htotal

end LcsSystem
