import LcsSystem.Quotations.Requotation

/-!
# The lines of a re-quotation

What a save established of every stored line (`QuotationRevisionLine.Priced`), and for which lines the body of a
re-quotation gives the same money again (`requotedLine_row`).
-/

namespace LcsSystem
open Relational DecimalArith Checks

/-! ## Stored lines -/

/-- What the checks of a save established of the columns of a line. -/
structure QuotationRevisionLine.Priced (l : QuotationRevisionLine) : Prop where
  quantity : 0 < l.quantity.val
  unitPrice : 0 ≤ l.unitPrice.val
  discountRate : l.discountRate.val = l.lineDiscount.val
  cents : Scaled 2 l.lineSubtotal.val ∧ Scaled 2 l.lineDiscount.val ∧ Scaled 2 l.lineTax.val
  rate : 0 < l.lineSubtotal.val - l.lineDiscount.val →
    mul (div l.lineTax.val (l.lineSubtotal.val - l.lineDiscount.val)) 100 ≤ 100

/-- A revision that rolls up, of priced lines numbered from 1. -/
structure PricedRevision (amounts : Amounts) (lines : List QuotationRevisionLine) : Prop where
  rolledUp : RolledUp amounts lines
  priced : ∀ l ∈ lines, l.Priced
  numbered : lines.map QuotationRevisionLine.lineNo = List.range' 1 lines.length

/-- Cents below the limit of a column fit in the context, also times a hundred. -/
theorem scaled_hundred {x : ℚ} (hx : Scaled 2 x) : Scaled 2 (x * 100) := by
  have hhundred : Scaled 0 (100 : ℚ) := scaled_iff.2 ⟨100, by norm_num⟩
  exact hx.mul hhundred

/-- A tax at a rate of no more than 100 is no more than what is taxed. -/
theorem rateTax_le {taxable rate : ℚ} (hcents : Scaled 2 taxable) (hbound : taxable < 10 ^ 15) (htaxable : 0 ≤ taxable)
    (hrate : 0 ≤ rate) (hle : rate ≤ 100) : money (div (mul taxable rate) 100) ≤ taxable := by
  have hmul : mul taxable rate ≤ taxable * 100 := by
    refine context_le (mul_nonneg htaxable hrate) (mul_le_mul_of_nonneg_left hle htaxable) (scaled_hundred hcents)
      (k := 17) ?_ (by decide)
    linarith
  have hmul_nonneg : 0 ≤ mul taxable rate := context_nonneg (mul_nonneg htaxable hrate)
  have hdiv : div (mul taxable rate) 100 ≤ taxable := by
    refine context_le (by positivity) ?_ hcents hbound (by decide)
    linarith
  have hdiv_nonneg : 0 ≤ div (mul taxable rate) 100 := context_nonneg (by positivity)
  calc money (div (mul taxable rate) 100) ≤ money taxable := roundHalfUp_mono hdiv_nonneg hdiv
    _ = taxable := money_of_scaled hcents

/-- The rate of a tax that is no more than what is taxed. -/
theorem taxRate_le {tax taxable : ℚ} (htax : 0 ≤ tax) (htaxable : 0 < taxable) (hle : tax ≤ taxable) :
    mul (div tax taxable) 100 ≤ 100 := by
  have hone : div tax taxable ≤ 1 :=
    context_le (by positivity) ((div_le_one htaxable).2 hle) (scaled_iff.2 ⟨1, by norm_num⟩) (s := 0) (k := 1)
      (by norm_num) (by decide)
  have hnonneg : 0 ≤ div tax taxable := context_nonneg (by positivity)
  refine context_le (by positivity) ?_ (scaled_iff.2 ⟨100, by norm_num⟩) (s := 0) (k := 3) (by norm_num) (by decide)
  linarith

theorem parseDecimal_eq_ok' {f : Field ℚ} {field : String} {default q : ℚ} {places : ℕ}
    (h : parseDecimal f field default places = .ok q) : q = default ∨ usesAtMost places q = true := by
  cases f with
  | absent | blank =>
    cases h
    exact .inl rfl
  | malformed => cases h
  | value x =>
    simp only [parseDecimal, bind_eq_ok, check_eq_ok, pure_eq_ok] at h
    obtain ⟨_, hplaces, rfl⟩ := h
    exact .inr hplaces

/-- The rate that a tax amounts to, where its own rate passed the check. -/
theorem pricedTax_rate {line : PricingLinePayload} {taxable : ℚ} {pre : String} {tax : ℚ × ℚ}
    (h : pricedTax line taxable pre = .ok tax) (hrate : 0 ≤ tax.2 ∧ tax.2 ≤ 100) (hcents : Scaled 2 taxable)
    (hbound : taxable < 10 ^ 15) (htaxable : 0 < taxable) : mul (div tax.1 taxable) 100 ≤ 100 := by
  unfold pricedTax at h
  split at h
  · simp only [bind_eq_ok, pure_eq_ok] at h
    obtain ⟨rate, -, rfl⟩ := h
    refine taxRate_le (roundHalfUp_nonneg ?_) htaxable (rateTax_le hcents hbound htaxable.le hrate.1 hrate.2)
    exact context_nonneg (div_nonneg (context_nonneg (mul_nonneg htaxable.le hrate.1)) (by norm_num))
  · simp only [bind_eq_ok, pure_eq_ok] at h
    obtain ⟨amount, -, rfl⟩ := h
    exact hrate.2

/-- The stored columns of a line that passed its checks. -/
theorem pricedLine_priced {db : QuotationDb} {index : ℕ} {payload : PricingLinePayload} {l : PricedLine}
    (h : pricedLine db index payload = .ok l) {revisionId lineNo : ℕ} {row : QuotationRevisionLine}
    (hrow : l.row revisionId lineNo = .ok row) : row.Priced := by
  have hchecked := pricedLine_checked h
  obtain ⟨hsubtotal, hdiscount, htax, -⟩ := hchecked.row_val hrow
  obtain ⟨hcentsSubtotal, hcentsDiscount, hcentsTax⟩ := hchecked.cents
  have hbound := row.lineSubtotal.bounded
  rw [hsubtotal] at hbound
  simp only [PricedLine.row, bind_eq_ok, pure_eq_ok] at hrow
  obtain ⟨quantity, hquantity, unitPrice, hunitPrice, discountRate, hdiscountRate, _, -, _, -, _, -, _, -, _, -, rfl⟩ := hrow
  simp only [pricedLine, bind_eq_ok, check_eq_ok, pure_eq_ok] at h
  obtain ⟨q, hq, price, hprice, entered, -, tax, htaxed, _, herrors, rfl⟩ := h
  simp only [pricedLineErrors, addError_eq_nil, not_or, not_le, not_lt] at herrors
  obtain ⟨⟨⟨⟨⟨⟨-, hpositive⟩, hnonneg⟩, hdiscounts⟩, htax_nonneg⟩, hrates⟩, -⟩ := herrors
  refine ⟨?_, ?_, ?_, ?_, ?_⟩
  · rw [val_of_store hquantity]
    rcases parseDecimal_eq_ok' hq with rfl | hplaces
    · rw [roundHalfUp_of_scaled (scaled_iff.2 ⟨1000, by norm_num⟩)]
      norm_num
    · exact roundHalfUp_pos_of_usesAtMost (by decide) hpositive hplaces
  · rw [val_of_store hunitPrice]
    exact roundHalfUp_nonneg hnonneg
  · rw [hdiscount, val_of_store hdiscountRate]
    exact roundHalfUp_of_scaled (hcentsDiscount.mono (by decide))
  · rw [hsubtotal, hdiscount, htax]
    exact hchecked.cents
  · rw [hsubtotal, hdiscount, htax]
    intro htaxable
    rw [max_eq_right htaxable.le] at htaxed
    refine pricedTax_rate htaxed hrates ?_ ?_ htaxable
    · exact hcentsSubtotal.sub hcentsDiscount
    · have hlt : money (mul q price) < 10 ^ 15 := (abs_lt.1 hbound).2
      exact (sub_le_self _ hdiscounts.1).trans_lt hlt

theorem pricedRowsFrom_numbered {revisionId lineNo : ℕ} {ls : List PricedLine} {rows : List QuotationRevisionLine}
    (h : pricedRowsFrom revisionId lineNo ls = .ok rows) :
    rows.map QuotationRevisionLine.lineNo = List.range' lineNo rows.length := by
  induction ls generalizing lineNo rows with
  | nil =>
    cases h
    rfl
  | cons l ls ih =>
    simp only [pricedRowsFrom, bind_eq_ok, pure_eq_ok] at h
    obtain ⟨row, hrow, rest, hrest, rfl⟩ := h
    simp only [PricedLine.row, bind_eq_ok, pure_eq_ok] at hrow
    obtain ⟨_, -, _, -, _, -, _, -, _, -, _, -, _, -, _, -, rfl⟩ := hrow
    rw [List.map_cons, ih hrest, List.length_cons, List.range'_succ]

theorem pricedRowsFrom_priced {db : QuotationDb} {index revisionId lineNo : ℕ} {payloads : List PricingLinePayload}
    {ls : List PricedLine} {rows : List QuotationRevisionLine} (h : pricedLinesFrom db index payloads = .ok ls)
    (hrows : pricedRowsFrom revisionId lineNo ls = .ok rows) : ∀ row ∈ rows, row.Priced := by
  induction payloads generalizing index lineNo ls rows with
  | nil =>
    cases h
    cases hrows
    simp
  | cons payload payloads ih =>
    simp only [pricedLinesFrom, bind_eq_ok, pure_eq_ok] at h
    obtain ⟨l, hl, rest, hrest, rfl⟩ := h
    simp only [pricedRowsFrom, bind_eq_ok, pure_eq_ok] at hrows
    obtain ⟨row, hrow, restRows, hrestRows, rfl⟩ := hrows
    exact List.forall_mem_cons.2 ⟨pricedLine_priced hl hrow, ih hrest hrestRows⟩

theorem pricedRevision_relation : LinesRelation PricedRevision where
  nil := ⟨rolledUp_nil, by simp, rfl⟩
  copy amounts lines revisionId h := by
    refine ⟨h.rolledUp.copy revisionId, ?_, ?_⟩
    · intro l hl
      obtain ⟨source, hsource, rfl⟩ := List.mem_map.1 hl
      obtain ⟨hquantity, hunitPrice, hdiscount, hcents, hrate⟩ := h.priced source hsource
      exact ⟨hquantity, hunitPrice, hdiscount, hcents, hrate⟩
    · rw [List.map_map, List.length_map]
      exact h.numbered
  saved _ _ _ _ _ _ hpriced hrows hamounts :=
    ⟨pricedAmounts_rolledUp (pricedLinesFrom_checked hpriced) hrows hamounts, pricedRowsFrom_priced hpriced hrows,
      pricedRowsFrom_numbered hrows⟩

/-! ## One line -/

/-- The amounts that a re-quotation should give again. -/
structure SameMoney (l copy : QuotationRevisionLine) : Prop where
  quantity : copy.quantity = l.quantity
  unitPrice : copy.unitPrice = l.unitPrice
  discount : copy.lineDiscount = l.lineDiscount
  tax : copy.lineTax = l.lineTax
  total : copy.lineTotal = l.lineTotal

/-- The stored subtotal is the product in cents. The product is no tie between two cents, and it has four
decimals at most or there is no tax and the product was not rounded up. -/
structure QuotationRevisionLine.Requotable (l : QuotationRevisionLine) : Prop where
  subtotal : l.lineSubtotal.val = money (l.quantity.val * l.unitPrice.val)
  noTie : money (l.quantity.val * l.unitPrice.val) - l.quantity.val * l.unitPrice.val ≠ 1 / 200
  places : Scaled 4 (l.quantity.val * l.unitPrice.val) ∨
    l.lineTax.val = 0 ∧ money (l.quantity.val * l.unitPrice.val) ≤ l.quantity.val * l.unitPrice.val

/-- A number whose context is below a power of ten is below it itself. -/
theorem lt_of_context_lt {x : ℚ} {k : ℕ} (hk : k ≤ 27) (h : context x < 10 ^ k) : x < 10 ^ k := by
  by_contra hle
  rw [not_lt] at hle
  have hscaled : Scaled 0 ((10 : ℚ) ^ k) := scaled_iff.2 ⟨10 ^ k, by push_cast; ring⟩
  have hexact : context ((10 : ℚ) ^ k) = 10 ^ k := by
    refine context_of_scaled hscaled (k := k + 1) ?_ (by omega)
    rw [abs_of_pos (by positivity), pow_succ]
    have hpos : (0 : ℚ) < 10 ^ k := by positivity
    linarith
  have hmono := context_mono (by positivity) hle
  rw [hexact] at hmono
  linarith

/-- The product of two columns is exact where it fits in a column. -/
theorem mul_columns (quantity : Quantity) (unitPrice : Money) (hquantity : 0 ≤ quantity.val) (hprice : 0 ≤ unitPrice.val)
    (h : money (mul quantity.val unitPrice.val) < 10 ^ 15) :
    mul quantity.val unitPrice.val = quantity.val * unitPrice.val ∧ quantity.val * unitPrice.val < 10 ^ 16 := by
  have hnonneg : 0 ≤ quantity.val * unitPrice.val := mul_nonneg hquantity hprice
  have hclose := roundHalfUp_error (s := 2) (context_nonneg hnonneg)
  have hbound : quantity.val * unitPrice.val < 10 ^ 16 := by
    refine lt_of_context_lt (by decide) ?_
    rw [money, mul] at h
    linarith [hclose.1]
  refine ⟨?_, hbound⟩
  refine context_of_scaled (quantity.scaled.mul unitPrice.scaled) (k := 16) ?_ (by decide)
  rwa [abs_of_nonneg hnonneg]

/-- The columns that a line of the order has from its source. -/
structure CopiesMoney (l : QuotationRevisionLine) (copy : OrderPricingLine) : Prop where
  quantity : copy.quantity = l.quantity
  unitPrice : copy.unitPrice = l.unitPrice
  discountRate : copy.discountRate = l.discountRate
  lineTotal : copy.lineTotal = l.lineTotal

theorem CopiesLine.money {line : ℕ × QuotationRevisionLine} {copy : OrderPricingLine} (h : CopiesLine line copy) :
    CopiesMoney line.2 copy := ⟨h.quantity, h.unitPrice, h.discountRate, h.lineTotal⟩

section
variable {db : QuotationDb} {index revisionId lineNo : ℕ} {l row : QuotationRevisionLine} {copy : OrderPricingLine}
  {priced : PricedLine}

/-- The amounts of a re-quoted line that passed the checks. -/
theorem pricedLine_requoted (h : pricedLine db index (requotedLine copy) = .ok priced) :
    usesAtMost 4 (requotedTax copy) = true ∧ priced.quantity = copy.quantity.val ∧
      priced.unitPrice = copy.unitPrice.val ∧ priced.discount = money copy.discountRate.val ∧
      priced.subtotal = money (mul copy.quantity.val copy.unitPrice.val) ∧ priced.tax = money (requotedTax copy) := by
  simp only [pricedLine, requotedLine, pricedTax, Field.given, Field.sent, parseDecimal, Bool.false_eq_true, if_true, if_false,
    bind_eq_ok, check_eq_ok, pure_eq_ok] at h
  obtain ⟨q, ⟨_, -, rfl⟩, price, ⟨_, -, rfl⟩, entered, ⟨_, -, rfl⟩, tax, ⟨amount, ⟨_, hplaces, rfl⟩, rfl⟩, _, -, rfl⟩ := h
  exact ⟨hplaces, rfl, rfl, rfl, rfl, rfl⟩

/-- The tax of a re-quoted line, over what its subtotal was rounded by. -/
theorem requotedTax_eq (hcopy : CopiesMoney l copy) (hpriced : l.Priced) (hbalanced : l.Balanced)
    (hexact : mul l.quantity.val l.unitPrice.val = l.quantity.val * l.unitPrice.val) :
    requotedTax copy = max 0 (l.lineSubtotal.val - l.quantity.val * l.unitPrice.val + l.lineTax.val) := by
  rw [requotedTax, hcopy.lineTotal, hcopy.quantity, hcopy.unitPrice, hcopy.discountRate, hexact, hbalanced.total,
    hpriced.discountRate]
  congr 1
  ring

/-- The re-quoted tax is short enough for the context. -/
theorem usesAtMost_requotedTax {x s t : ℚ} (hx : Scaled 7 x) (hs : Scaled 2 s) (ht : Scaled 2 t) (hx0 : 0 ≤ x)
    (hs15 : s < 10 ^ 15) (ht15 : t < 10 ^ 15) : usesAtMost 4 (max 0 (s - x + t)) = true ↔ Scaled 4 (max 0 (s - x + t)) := by
  have hscaled : Scaled 7 (max 0 (s - x + t)) := by
    rcases le_total (s - x + t) 0 with hle | hge
    · rw [max_eq_left hle]
      exact scaled_zero 7
    · rw [max_eq_right hge]
      exact ((hs.mono (by decide)).sub hx).add (ht.mono (by decide))
  have hbound : |max 0 (s - x + t)| < 10 ^ 16 := by
    rw [abs_of_nonneg (le_max_left _ _), max_lt_iff]
    constructor
    · norm_num
    · linarith
  rw [usesAtMost, decide_eq_true_eq, context_of_scaled hscaled hbound (by decide)]

/-- The money of a line survives where it is requotable, … -/
theorem SameMoney.requotable (hcopy : CopiesMoney l copy) (hpriced : l.Priced) (hbalanced : l.Balanced)
    (h : pricedLine db index (requotedLine copy) = .ok priced) (hrow : priced.row revisionId lineNo = .ok row)
    (hsame : SameMoney l row) : l.Requotable := by
  have hchecked := pricedLine_checked h
  obtain ⟨hsubtotal, hdiscount, htax, htotal⟩ := hchecked.row_val hrow
  obtain ⟨hplaces, hq, hp, hd, hs, ht⟩ := pricedLine_requoted h
  have hcolumns := mul_columns l.quantity l.unitPrice hpriced.quantity.le hpriced.unitPrice (by
    have hbound : |row.lineSubtotal.val| < 10 ^ 15 := row.lineSubtotal.bounded
    rw [hsubtotal, hs, hcopy.quantity, hcopy.unitPrice] at hbound
    exact (abs_lt.1 hbound).2)
  obtain ⟨hexact, -⟩ := hcolumns
  have hproduct : 0 ≤ l.quantity.val * l.unitPrice.val := mul_nonneg hpriced.quantity.le hpriced.unitPrice
  -- the same total, discount and tax leave the same subtotal
  have hsub : l.lineSubtotal.val = money (l.quantity.val * l.unitPrice.val) := by
    have htotals : row.lineTotal.val = l.lineTotal.val := by rw [hsame.total]
    rw [htotal, hchecked.total_eq, ← htax, ← hdiscount, hsame.tax, hsame.discount, hbalanced.total, hs, hcopy.quantity,
      hcopy.unitPrice, hexact] at htotals
    linarith
  have htaxes : money (requotedTax copy) = l.lineTax.val := by rw [← ht, ← htax, hsame.tax]
  have hbound : ∀ m : Money, m.val < 10 ^ 15 := fun m => (abs_lt.1 m.bounded).2
  rw [requotedTax_eq hcopy hpriced hbalanced hexact] at hplaces htaxes
  rw [usesAtMost_requotedTax (l.quantity.scaled.mul l.unitPrice.scaled) hpriced.cents.1 hpriced.cents.2.2 hproduct
    (hbound _) (hbound _)] at hplaces
  rw [hsub] at hplaces htaxes
  obtain ⟨hnoTie, hdecimals⟩ := (money_requoted hproduct hbalanced.tax_nonneg hpriced.cents.2.2).1 ⟨hplaces, htaxes⟩
  exact ⟨hsub, hnoTie, hdecimals⟩

/-- Storing what a column holds. -/
theorem store_val {p s : ℕ} (y : Numeric p s) : store p s y.val = .ok y := store_eq_ok.2 (Numeric.store?_val y)

/-- A rate of no more than 100 fits in its column. -/
theorem store_rate {rate : ℚ} (hrate : 0 ≤ rate) (hle : rate ≤ 100) : ∃ y : TaxRate, store 7 4 rate = .ok y := by
  have hbound : |roundHalfUp 4 rate| < 10 ^ 3 := by
    rw [abs_of_nonneg (roundHalfUp_nonneg hrate)]
    calc roundHalfUp 4 rate ≤ roundHalfUp 4 100 := roundHalfUp_mono hrate hle
      _ = 100 := roundHalfUp_of_scaled (scaled_iff.2 ⟨1000000, by norm_num⟩)
      _ < 10 ^ 3 := by norm_num
  refine ⟨⟨roundHalfUp 4 rate, scaled_roundHalfUp 4 rate, hbound⟩, store_eq_ok.2 ?_⟩
  rw [Numeric.store?, dif_pos hbound]

/-- … and only there. -/
theorem QuotationRevisionLine.Requotable.sameMoney (db : QuotationDb) (hline : l.Requotable) (hcopy : CopiesMoney l copy)
    (hpriced : l.Priced) (hbalanced : l.Balanced) (index : ℕ) :
    ∃ priced, pricedLine db index (requotedLine copy) = .ok priced ∧ priced.subtotal = l.lineSubtotal.val ∧
      priced.discount = l.lineDiscount.val ∧ priced.tax = l.lineTax.val ∧
      ∀ revisionId lineNo, ∃ row, priced.row revisionId lineNo = .ok row ∧ SameMoney l row := by
  have hproduct : 0 ≤ l.quantity.val * l.unitPrice.val := mul_nonneg hpriced.quantity.le hpriced.unitPrice
  have hbound : ∀ m : Money, m.val < 10 ^ 15 := fun m => (abs_lt.1 m.bounded).2
  have hexact : mul l.quantity.val l.unitPrice.val = l.quantity.val * l.unitPrice.val := by
    refine context_of_scaled (l.quantity.scaled.mul l.unitPrice.scaled) (k := 16) ?_ (by decide)
    have herror := (roundHalfUp_error (s := 2) hproduct).1
    rw [← LcsSystem.money, ← hline.subtotal] at herror
    rw [abs_of_nonneg hproduct]
    linarith [hbound l.lineSubtotal]
  have hnumber := (money_requoted hproduct hbalanced.tax_nonneg hpriced.cents.2.2).2 ⟨hline.noTie, hline.places⟩
  rw [← hline.subtotal, ← requotedTax_eq hcopy hpriced hbalanced hexact] at hnumber
  obtain ⟨hscaled, htax⟩ := hnumber
  have hplaces : usesAtMost 4 (requotedTax copy) = true := by
    rw [requotedTax_eq hcopy hpriced hbalanced hexact] at hscaled ⊢
    exact (usesAtMost_requotedTax (l.quantity.scaled.mul l.unitPrice.scaled) hpriced.cents.1 hpriced.cents.2.2 hproduct
      (hbound _) (hbound _)).2 hscaled
  have hsubtotal : money (mul copy.quantity.val copy.unitPrice.val) = l.lineSubtotal.val := by
    rw [hcopy.quantity, hcopy.unitPrice, hexact, hline.subtotal]
  have hdiscount : money copy.discountRate.val = l.lineDiscount.val := by
    rw [hcopy.discountRate, hpriced.discountRate]
    exact money_of_scaled hpriced.cents.2.1
  -- the rate passes its check again
  generalize hrate : (if 0 < max 0 (l.lineSubtotal.val - l.lineDiscount.val) then
    mul (div l.lineTax.val (max 0 (l.lineSubtotal.val - l.lineDiscount.val))) 100 else 0) = rate
  have hrates : 0 ≤ rate ∧ rate ≤ 100 := by
    rw [← hrate]
    split
    · next hpos =>
      have hdiff : 0 < l.lineSubtotal.val - l.lineDiscount.val := by
        rcases lt_max_iff.1 hpos with h0 | h0
        · exact absurd h0 (lt_irrefl 0)
        · exact h0
      rw [max_eq_right hdiff.le]
      refine ⟨?_, hpriced.rate hdiff⟩
      exact context_nonneg (mul_nonneg (context_nonneg (div_nonneg hbalanced.tax_nonneg hdiff.le)) (by norm_num))
    · norm_num
  refine ⟨{
    quantity := copy.quantity.val
    unitPrice := copy.unitPrice.val
    discount := l.lineDiscount.val
    subtotal := l.lineSubtotal.val
    taxRate := rate
    tax := l.lineTax.val
    feeTypeId := resolveReferenceId db.feeTypes (requotedLine copy).feeTypeId.reference? none
    serviceDescription := ((requotedLine copy).description.text.get?.or none).getD "Service"
    unitCode := (requotedLine copy).unit.text.get? }, ?_, rfl, rfl, rfl, fun revisionId lineNo => ?_⟩
  · simp only [pricedLine, pricedTax, requotedLine, Field.given, Field.sent, parseDecimal, Bool.false_eq_true, if_true,
      if_false, bind_eq_ok, check_eq_ok, pure_eq_ok]
    refine ⟨_, ⟨⟨⟩, usesAtMost_val copy.quantity (by decide), rfl⟩, _, ⟨⟨⟩, usesAtMost_val copy.unitPrice (by decide), rfl⟩,
      _, ⟨⟨⟩, usesAtMost_val copy.discountRate (by decide), rfl⟩, _, ⟨_, ⟨⟨⟩, hplaces, rfl⟩, rfl⟩, ⟨⟩, ?_, ?_⟩
    · rw [hsubtotal, hdiscount, htax, hrate]
      refine check_eq_ok.2 ?_
      simp only [pricedLineErrors, addError_eq_nil, not_or, not_le, not_lt, hcopy.quantity, hcopy.unitPrice]
      exact ⟨⟨⟨⟨⟨⟨trivial, hpriced.quantity⟩, hpriced.unitPrice⟩, hbalanced.discount_nonneg, hbalanced.discount_le⟩,
        hbalanced.tax_nonneg⟩, hrates⟩, fun h => (by cases h.1)⟩
    · rw [hsubtotal, hdiscount, htax, hrate]
      rfl
  · obtain ⟨taxRate, htaxRate⟩ := store_rate hrates.1 hrates.2
    have hdiscountRate : store 7 4 l.lineDiscount.val = .ok l.discountRate := by
      rw [← hpriced.discountRate]
      exact store_val l.discountRate
    have htotal : PricedLine.total ⟨copy.quantity.val, copy.unitPrice.val, l.lineDiscount.val, rate, l.lineSubtotal.val,
        l.lineTax.val, resolveReferenceId db.feeTypes (requotedLine copy).feeTypeId.reference? none,
        ((requotedLine copy).description.text.get?.or none).getD "Service", (requotedLine copy).unit.text.get?⟩ =
          l.lineTotal.val := by
      rw [hbalanced.total]
      exact money_of_scaled ((hpriced.cents.1.sub hpriced.cents.2.1).add hpriced.cents.2.2)
    simp only [PricedLine.row, store_val, hdiscountRate, htaxRate, htotal, ok_bind]
    exact ⟨_, rfl, hcopy.quantity, hcopy.unitPrice, rfl, rfl, rfl⟩

end

/-! ## All lines of a revision -/

section
variable {db : QuotationDb} {revisionId : ℕ} {lines rows : List QuotationRevisionLine} {copies : List OrderPricingLine}

theorem requotable_of_sameMoney (hcopies : List.Forall₂ CopiesMoney lines copies) (hpriced : ∀ l ∈ lines, l.Priced)
    (hbalanced : ∀ l ∈ lines, l.Balanced) {index lineNo : ℕ} {priced : List PricedLine}
    (h : pricedLinesFrom db index (copies.map requotedLine) = .ok priced)
    (hrows : pricedRowsFrom revisionId lineNo priced = .ok rows) (hsame : List.Forall₂ SameMoney lines rows) :
    ∀ l ∈ lines, l.Requotable := by
  induction hcopies generalizing index lineNo priced rows with
  | nil => simp
  | cons hcopy _ ih =>
    rw [List.forall_mem_cons] at hpriced hbalanced
    simp only [List.map_cons, pricedLinesFrom, bind_eq_ok, pure_eq_ok] at h
    obtain ⟨first, hfirst, rest, hrest, rfl⟩ := h
    simp only [pricedRowsFrom, bind_eq_ok, pure_eq_ok] at hrows
    obtain ⟨row, hrow, restRows, hrestRows, rfl⟩ := hrows
    obtain ⟨hsameFirst, hsameRest⟩ := List.forall₂_cons.1 hsame
    exact List.forall_mem_cons.2 ⟨hsameFirst.requotable hcopy hpriced.1 hbalanced.1 hfirst hrow,
      ih hpriced.2 hbalanced.2 hrest hrestRows hsameRest⟩

theorem sameMoney_of_requotable (hcopies : List.Forall₂ CopiesMoney lines copies) (hpriced : ∀ l ∈ lines, l.Priced)
    (hbalanced : ∀ l ∈ lines, l.Balanced) (hlines : ∀ l ∈ lines, l.Requotable) (db : QuotationDb) (revisionId index lineNo : ℕ) :
    ∃ priced rows, pricedLinesFrom db index (copies.map requotedLine) = .ok priced ∧
      pricedRowsFrom revisionId lineNo priced = .ok rows ∧ List.Forall₂ SameMoney lines rows ∧
      priced.map PricedLine.subtotal = lines.map (fun l => l.lineSubtotal.val) ∧
      priced.map PricedLine.discount = lines.map (fun l => l.lineDiscount.val) ∧
      priced.map PricedLine.tax = lines.map (fun l => l.lineTax.val) := by
  induction hcopies generalizing index lineNo with
  | nil => exact ⟨[], [], rfl, rfl, .nil, rfl, rfl, rfl⟩
  | cons hcopy _ ih =>
    rw [List.forall_mem_cons] at hpriced hbalanced hlines
    obtain ⟨first, hfirst, hsubtotal, hdiscount, htax, hrow⟩ := hlines.1.sameMoney db hcopy hpriced.1 hbalanced.1 index
    obtain ⟨row, hrow, hsame⟩ := hrow revisionId lineNo
    obtain ⟨rest, restRows, hrest, hrestRows, hsames, hsubtotals, hdiscounts, htaxes⟩ :=
      ih hpriced.2 hbalanced.2 hlines.2 (index + 1) (lineNo + 1)
    refine ⟨first :: rest, row :: restRows, ?_, ?_, .cons hsame hsames, ?_, ?_, ?_⟩
    · rw [List.map_cons, pricedLinesFrom, hfirst, ok_bind, hrest]
      rfl
    · rw [pricedRowsFrom, hrow, ok_bind, hrestRows]
      rfl
    · rw [List.map_cons, List.map_cons, hsubtotal, hsubtotals]
    · rw [List.map_cons, List.map_cons, hdiscount, hdiscounts]
    · rw [List.map_cons, List.map_cons, htax, htaxes]

/-- The totals of the re-quotation are those of the source. -/
theorem pricedAmounts_requoted {amounts : Amounts} {priced : List PricedLine} (h : RolledUp amounts lines)
    (hpriced : ∀ l ∈ lines, l.Priced) (hchecked : ∀ l ∈ priced, l.Checked)
    (hsubtotals : priced.map PricedLine.subtotal = lines.map fun l => l.lineSubtotal.val)
    (hdiscounts : priced.map PricedLine.discount = lines.map fun l => l.lineDiscount.val)
    (htaxes : priced.map PricedLine.tax = lines.map fun l => l.lineTax.val) : pricedAmounts priced = .ok amounts := by
  have hcents : ∀ {f : QuotationRevisionLine → ℚ}, (∀ l ∈ lines, Scaled 2 (f l)) → Scaled 2 (lines.map f).sum := by
    intro f hf
    refine Scaled.sum fun x hx => ?_
    obtain ⟨l, hl, rfl⟩ := List.mem_map.1 hx
    exact hf l hl
  have hsubtotal : money (priced.map PricedLine.subtotal).sum = amounts.subtotal.val := by
    rw [hsubtotals, h.subtotal, money_of_scaled (hcents fun l hl => (hpriced l hl).cents.1)]
  have hdiscount : money (priced.map PricedLine.discount).sum = amounts.discount.val := by
    rw [hdiscounts, h.discount, money_of_scaled (hcents fun l hl => (hpriced l hl).cents.2.1)]
  have htax : money (priced.map PricedLine.tax).sum = amounts.tax.val := by
    rw [htaxes, h.tax, money_of_scaled (hcents fun l hl => (hpriced l hl).cents.2.2)]
  have htotal : money (priced.map PricedLine.total).sum = amounts.total.val := by
    have hsum : (priced.map PricedLine.total).sum = (priced.map PricedLine.subtotal).sum -
        (priced.map PricedLine.discount).sum + (priced.map PricedLine.tax).sum := by
      clear hsubtotals hdiscounts htaxes hsubtotal hdiscount htax
      induction priced with
      | nil => simp
      | cons l ls ih =>
        rw [List.forall_mem_cons] at hchecked
        simp only [List.map_cons, List.sum_cons, ih hchecked.2, hchecked.1.total_eq]
        ring
    have hscaled : Scaled 2 (priced.map PricedLine.total).sum := by
      refine Scaled.sum fun x hx => ?_
      obtain ⟨l, -, rfl⟩ := List.mem_map.1 hx
      exact scaled_money _
    rw [money_of_scaled hscaled, hsum, hsubtotals, hdiscounts, htaxes, h.total, h.subtotal, h.discount, h.tax]
  rw [pricedAmounts, hsubtotal, hdiscount, htax, htotal]
  simp only [storeMoney, store_val, ok_bind]
  rfl

end

end LcsSystem
