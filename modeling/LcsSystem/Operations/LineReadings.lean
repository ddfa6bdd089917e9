import LcsSystem.Finance.SavedDocuments
import LcsSystem.Operations.Charges

/-!
# One money line, read by two services

`save_charge` and `save_document` read a line mapping over the same helpers (`core/validation.py:477-536`)
in two loops (`modules/operations/service.py:1075-1159`, `modules/finance/service.py:1028-1104`), each
behind a schema of its own. A mapping is read here from its raw cells: `RecordSchema.validate` normalises
the cells of its fields, moves an alias to its key, and leaves every other cell as it came.

`readings_agree_iff` compares the two: the loops are one reader of the cells that their schemas hand on,
but for a quantity of zero and for the cells that only one of the schemas checks.
-/

namespace LcsSystem
open DecimalArith Checks

/-! ## Raw cells -/

/-- What a mapping has under a key. `blank` is null or `""`; `hollow` is what only `is_blank` takes for
blank: spaces, an empty list or object. -/
inductive Cell
  | absent
  | blank
  | hollow
  | malformed
  | value (q : ℚ)
  deriving DecidableEq

namespace Cell

/-- `key in payload`. -/
def sent : Cell → Bool
  | absent => false
  | _ => true

/-- The cell after `_normalize`. -/
def normalized : Cell → Field ℚ
  | absent => .absent
  | blank | hollow => .blank
  | malformed => .malformed
  | value q => .value q

/-- The cell as it came: what is hollow is no number. -/
def raw : Cell → Field ℚ
  | absent => .absent
  | blank => .blank
  | hollow | malformed => .malformed
  | value q => .value q

end Cell

abbrev LineMapping := String → Cell

/-- The key under which the field is found: its own, else the first alias the mapping has. -/
def sourceKey (m : LineMapping) (field : String × List String) : Option String :=
  (field.1 :: field.2).find? fun key => (m key).sent

/-- One turn of `RecordSchema.validate`: the cell is normalised under the field's key, an alias is popped. -/
def normalizeField (m : LineMapping) (normalized : String → Field ℚ) (field : String × List String) :
    String → Field ℚ :=
  match sourceKey m field with
  | none => normalized
  | some source => fun key =>
    if key = field.1 then (m source).normalized else if key = source then .absent else normalized key

/-- The mapping that `RecordSchema.validate` returns. -/
def normalizeMapping (fields : List (String × List String)) (m : LineMapping) : String → Field ℚ :=
  fields.foldl (normalizeField m) fun key => (m key).raw

/-- The money fields of `DOCUMENT_LINE_SCHEMA`, with their aliases. -/
def documentMoneyFields : List (String × List String) :=
  [("quantity", []), ("unitPrice", ["unit_price", "unitAmount", "unit_amount"]),
    ("discount", ["discountAmount", "discount_amount"]), ("taxRate", ["tax_rate", "tax"]),
    ("taxAmount", ["tax_amount"])]

/-- The money fields of `CHARGE_LINE_SCHEMA`. -/
def chargeMoneyFields : List (String × List String) :=
  [("quantity", []), ("unitPrice", ["unit_price"]), ("unitAmount", ["unit_amount"]), ("discount", []),
    ("taxRate", ["tax_rate"]), ("tax", []), ("taxAmount", ["tax_amount"])]

/-- The money cells that the loop of `save_document` reads; the mapping has no other cells. -/
def documentLineOf (m : LineMapping) : LinePayload :=
  let line := normalizeMapping documentMoneyFields m
  { LinePayload.empty with
    quantity := line "quantity"
    unitPrice := line "unitPrice"
    unitAmount := line "unitAmount"
    discount := line "discount"
    taxRate := line "taxRate"
    taxAmount := line "taxAmount"
    tax := line "tax" }

/-- The money cells that the loop of `save_charge` reads. -/
def chargeLineOf (m : LineMapping) : ChargeLinePayload :=
  let line := normalizeMapping chargeMoneyFields m
  { ChargeLinePayload.empty with
    quantity := line "quantity"
    unitPrice := line "unitPrice"
    unitAmount := line "unitAmount"
    discount := line "discount"
    taxRate := line "taxRate"
    taxAmount := line "taxAmount"
    tax := line "tax" }

/-! ## The two readings -/

deriving instance DecidableEq for LineFigures

def LineDraft.figures (l : LineDraft) : LineFigures :=
  ⟨l.quantity, l.unitPrice, l.base, l.discount, l.taxRate, l.taxAmount⟩

/-- The line amount is a function of the figures, the same in both services. -/
theorem LineDraft.figures_amount (l : LineDraft) : l.figures.amount = l.amount := rfl

/-- Line `index` of a document: its schema, then its turn of the loop. -/
def readDocumentLine (db : Db) (index : ℕ) (m : LineMapping) : Result LineFigures := do
  RecordSchema.validate (documentLineSchema (documentLineOf m))
  let draft ← draftOfLine db index (documentLineOf m)
  return draft.figures

/-- A line of a charge, addressed as `pre`. -/
def readChargeLine (pre : String) (m : LineMapping) : Result LineFigures := do
  RecordSchema.validate (chargeLineSchema (chargeLineOf m))
  chargeFigures pre (chargeLineOf m)

/-! ## One reader of cells -/

/-- The number of a cell: absent and blank read as `default`. -/
def Field.number (f : Field ℚ) (default : ℚ) (places : ℕ) : Option ℚ :=
  match f with
  | .absent | .blank => some default
  | .malformed => none
  | .value q => if usesAtMost places q then some q else none

theorem parseDecimal_eq_ok {f : Field ℚ} {field : String} {default q : ℚ} {places : ℕ} :
    parseDecimal f field default places = .ok q ↔ f.number default places = some q := by
  cases f with
  | absent | blank => simp [parseDecimal, Field.number]
  | malformed => simp [parseDecimal, Field.number]
  | value x => simp [parseDecimal, Field.number]

/-- Tax amount and rate of a line. -/
def TaxInput.resolved (line : TaxInput) (taxable : ℚ) : Option (ℚ × ℚ) :=
  if line.taxRate.given then
    (line.taxRate.number 0 4).map fun rate => (div (mul taxable rate) 100, rate)
  else if line.taxAmount.given then
    (line.taxAmount.number 0 4).map fun amount => (amount, if 0 < taxable then mul (div amount taxable) 100 else 0)
  else if line.tax.given then
    (line.tax.number 0 4).map fun rate => (div (mul taxable rate) 100, rate)
  else some (0, 0)

theorem resolveLineTax_eq_ok {line : TaxInput} {taxable : ℚ} (pre : String) {r : ℚ × ℚ} :
    (∃ field, resolveLineTax line taxable pre = .ok (field, r)) ↔ line.resolved taxable = some r := by
  unfold resolveLineTax TaxInput.resolved
  split
  · simp [parseDecimal_eq_ok]
  · split
    · simp [parseDecimal_eq_ok]
    · split <;> simp [parseDecimal_eq_ok]

/-- The cells a loop computes a line from. -/
structure MoneyCells extends TaxInput where
  quantity : Field ℚ
  unitPrice : Field ℚ
  discount : Field ℚ

namespace MoneyCells

/-- `base - discount`. -/
def taxable (c : MoneyCells) : Option ℚ :=
  (c.quantity.number 1 3).bind fun quantity => (c.unitPrice.number 0 4).bind fun unitPrice =>
    (c.discount.number 0 4).map fun discount => mul quantity unitPrice - discount

def figures (c : MoneyCells) : Option LineFigures :=
  (c.quantity.number 1 3).bind fun quantity => (c.unitPrice.number 0 4).bind fun unitPrice =>
    (c.discount.number 0 4).bind fun discount =>
      (c.toTaxInput.resolved (mul quantity unitPrice - discount)).map fun tax =>
        ⟨quantity, unitPrice, mul quantity unitPrice, discount, tax.2, tax.1⟩

theorem figures_eq_some {c : MoneyCells} {f : LineFigures} : c.figures = some f ↔
    c.quantity.number 1 3 = some f.quantity ∧ c.unitPrice.number 0 4 = some f.unitPrice ∧
      c.discount.number 0 4 = some f.discount ∧ f.base = mul f.quantity f.unitPrice ∧
      c.toTaxInput.resolved (f.base - f.discount) = some (f.taxAmount, f.taxRate) := by
  simp only [figures, Option.bind_eq_some_iff, Option.map_eq_some_iff]
  constructor
  · rintro ⟨quantity, hq, unitPrice, hp, discount, hd, tax, ht, rfl⟩
    exact ⟨hq, hp, hd, rfl, ht⟩
  · rintro ⟨hq, hp, hd, hb, ht⟩
    refine ⟨_, hq, _, hp, _, hd, _, hb ▸ ht, ?_⟩
    rw [← hb]

end MoneyCells

/-- The bounds both loops check. -/
structure LineFigures.Valid (f : LineFigures) : Prop where
  quantity : 0 < f.quantity
  unitPrice : 0 ≤ f.unitPrice
  discount : 0 ≤ f.discount
  discount_le : f.discount ≤ f.base
  taxAmount : 0 ≤ f.taxAmount
  taxRate : 0 ≤ f.taxRate
  taxRate_le : f.taxRate ≤ 100

theorem LineFigures.valid_iff {f : LineFigures} : f.Valid ↔ 0 < f.quantity ∧ 0 ≤ f.unitPrice ∧ 0 ≤ f.discount ∧
    f.discount ≤ f.base ∧ 0 ≤ f.taxAmount ∧ 0 ≤ f.taxRate ∧ f.taxRate ≤ 100 :=
  ⟨fun h => ⟨h.1, h.2, h.3, h.4, h.5, h.6, h.7⟩, fun ⟨h1, h2, h3, h4, h5, h6, h7⟩ => ⟨h1, h2, h3, h4, h5, h6, h7⟩⟩

/-- A cell that a schema lets through: no malformed value, none out of the bounds. -/
def Field.Within (f : Field ℚ) (P : ℚ → Prop) : Prop := f ≠ .malformed ∧ ∀ q, f = .value q → P q

theorem checkDecimal_eq_nil {spec : DecimalSpec} {f : Field ℚ} : spec.check f = [] ↔ f.Within fun q =>
    (∀ b ∈ spec.minimum, b.value ≤ q) ∧ (∀ b ∈ spec.maximum, q ≤ b.value) ∧
      ∀ p ∈ spec.decimalPlaces, usesAtMost p q = true := by
  cases f with
  | absent | blank => simp [DecimalSpec.check, Field.Within]
  | malformed => simp [DecimalSpec.check, Field.Within]
  | value q =>
    obtain ⟨key, minimum, maximum, decimalPlaces⟩ := spec
    simp only [DecimalSpec.check, Field.Within, ne_eq, reduceCtorEq, not_false_eq_true, Field.value.injEq, true_and,
      forall_eq', Option.mem_def]
    cases minimum <;> cases maximum <;> cases decimalPlaces <;>
      simp [Option.filter] <;> grind

theorem Field.Within.of_number {f : Field ℚ} {default q : ℚ} {places : ℕ} {P : ℚ → Prop}
    (h : f.number default places = some q) (hq : usesAtMost places q = true → P q) : f.Within P := by
  cases f with
  | absent | blank => simp [Field.Within]
  | malformed => cases h
  | value x =>
    refine ⟨by simp, fun y hy => ?_⟩
    cases hy
    simp only [Field.number, Option.ite_none_right_eq_some, Option.some.injEq] at h
    obtain ⟨hplaces, rfl⟩ := h
    exact hq hplaces

/-! ## The loops as readers of cells -/

/-- `unitPrice`, else `unitAmount`. -/
def priceCell (unitPrice unitAmount : Field ℚ) : Field ℚ := if unitPrice.given then unitPrice else unitAmount

def LinePayload.cells (line : LinePayload) : MoneyCells where
  toTaxInput := line.toTaxInput
  quantity := line.quantity
  unitPrice := priceCell line.unitPrice line.unitAmount
  discount := line.discount

/-- `quantity or Decimal("1")`. -/
def orOne : Field ℚ → Field ℚ
  | .value q => .value (if q = 0 then 1 else q)
  | f => f

def ChargeLinePayload.cells (line : ChargeLinePayload) : MoneyCells where
  toTaxInput := line.toTaxInput
  quantity := orOne line.quantity
  unitPrice := priceCell line.unitPrice line.unitAmount
  discount := line.discount

theorem number_orOne {f : Field ℚ} {q : ℚ} : (orOne f).number 1 3 = some q ↔
    ∃ sent, f.number 1 3 = some sent ∧ (if sent = 0 then 1 else sent) = q := by
  cases f with
  | absent | blank => simp [orOne, Field.number]
  | malformed => simp [orOne, Field.number]
  | value x =>
    by_cases hx : x = 0
    · subst hx
      have hzero : usesAtMost 3 0 = true := by simp [usesAtMost]
      have hone : usesAtMost 3 1 = true := by decide +kernel
      simp [orOne, Field.number, hzero, hone]
    · by_cases hplaces : usesAtMost 3 x = true
      · simp [orOne, Field.number, hx, hplaces]
      · simp [orOne, Field.number, hx, hplaces]

/-- A number is given where the cell is, so a bad price cell is a bad price. -/
theorem within_unitPrice {unitPrice unitAmount : Field ℚ} {q : ℚ}
    (h : (priceCell unitPrice unitAmount).number 0 4 = some q) : unitPrice ≠ .malformed := by
  rintro rfl
  cases h

theorem within_taxRate {line : TaxInput} {taxable : ℚ} {r : ℚ × ℚ} (h : line.resolved taxable = some r)
    (hlow : 0 ≤ r.2) (hhigh : r.2 ≤ 100) : line.taxRate.Within fun q => 0 ≤ q ∧ q ≤ 100 := by
  by_cases hgiven : line.taxRate.given = true
  · simp only [TaxInput.resolved, hgiven, if_true, Option.map_eq_some_iff] at h
    obtain ⟨rate, hrate, rfl⟩ := h
    cases htax : line.taxRate with
    | absent | blank => simp [Field.Within]
    | malformed => simp [htax, Field.number] at hrate
    | value q =>
      simp only [htax, Field.number, Option.ite_none_right_eq_some, Option.some.injEq] at hrate
      obtain ⟨-, rfl⟩ := hrate
      simpa [Field.Within] using ⟨hlow, hhigh⟩
  · cases htax : line.taxRate <;> simp_all [Field.Within, Field.given]

/-! ## Acceptance -/

/-- The cells give figures within the bounds. -/
def MoneyCells.Accepted (c : MoneyCells) (f : LineFigures) : Prop := c.figures = some f ∧ f.Valid

theorem documentLineSchema_eq_nil {m : LineMapping} : documentLineSchema (documentLineOf m) = [] ↔
    (documentLineOf m).quantity.Within (fun q => 0 ≤ q ∧ usesAtMost 3 q = true) ∧
      (documentLineOf m).unitPrice.Within (fun _ => True) ∧ (documentLineOf m).discount.Within (fun q => 0 ≤ q) ∧
      (documentLineOf m).taxRate.Within (fun q => 0 ≤ q ∧ q ≤ 100) ∧
      (documentLineOf m).taxAmount.Within fun q => 0 ≤ q := by
  simp only [documentLineSchema, List.append_eq_nil_iff, checkDecimal_eq_nil]
  simp [documentLineOf, LinePayload.empty, TextSpec.check, Field.text, checkReference, zeroBound, and_assoc]

theorem chargeLineSchema_eq_nil {m : LineMapping} : chargeLineSchema (chargeLineOf m) = [] ↔
    (chargeLineOf m).quantity.Within (fun q => 0 ≤ q ∧ usesAtMost 3 q = true) ∧
      (chargeLineOf m).unitPrice.Within (fun _ => True) ∧ (chargeLineOf m).unitAmount.Within (fun _ => True) ∧
      (chargeLineOf m).discount.Within (fun q => 0 ≤ q) ∧
      (chargeLineOf m).taxRate.Within (fun q => 0 ≤ q ∧ q ≤ 100) ∧
      (chargeLineOf m).tax.Within (fun q => 0 ≤ q ∧ q ≤ 100) ∧
      (chargeLineOf m).taxAmount.Within fun q => 0 ≤ q := by
  simp only [chargeLineSchema, List.append_eq_nil_iff, checkDecimal_eq_nil]
  simp [chargeLineOf, ChargeLinePayload.empty, TextSpec.check, Field.text, checkReference, zeroBound, and_assoc]

theorem draftOfLine_accepted {db : Db} {index : ℕ} {line : LinePayload} {l : LineDraft}
    (h : draftOfLine db index line = .ok l) : line.cells.Accepted l.figures := by
  simp only [draftOfLine, bind_eq_ok, check_eq_ok, pure_eq_ok, parseDecimal_eq_ok, lineErrors_eq_nil] at h
  obtain ⟨quantity, hq, unitPrice, hp, discount, hd, tax, ht, _, hvalid, _, -, rfl⟩ := h
  refine ⟨MoneyCells.figures_eq_some.2 ⟨hq, hp, hd, rfl, (resolveLineTax_eq_ok _).1 ⟨tax.1, ht⟩⟩, ?_⟩
  rw [LineFigures.valid_iff]
  tauto

/-- The loop of `save_document`, on a line with money cells only. -/
theorem draftOfLine_eq_ok {db : Db} {index : ℕ} {m : LineMapping} {f : LineFigures} :
    (∃ l, draftOfLine db index (documentLineOf m) = .ok l ∧ l.figures = f) ↔ (documentLineOf m).cells.Accepted f := by
  constructor
  · rintro ⟨l, hl, rfl⟩
    exact draftOfLine_accepted hl
  · have haccount : lineAccountId db (documentLineOf m) = .ok none := rfl
    simp only [draftOfLine, bind_eq_ok, check_eq_ok, pure_eq_ok, haccount, parseDecimal_eq_ok, lineErrors_eq_nil,
      MoneyCells.Accepted, MoneyCells.figures_eq_some, LineFigures.valid_iff]
    rintro ⟨⟨hq, hp, hd, hb, ht⟩, hvalid⟩
    rw [hb] at ht
    obtain ⟨field, hfield⟩ := (resolveLineTax_eq_ok ("lines." ++ toString index)).2 ht
    refine ⟨_, ⟨_, hq, _, hp, _, hd, _, hfield, ⟨⟩, ?_, none, rfl, rfl⟩, ?_⟩
    · rw [← hb]
      tauto
    · simp only [LineDraft.figures, ← hb]

/-- A line of a document: the loop's cells, and a tax amount that the schema lets through. -/
theorem documentLine_eq_ok {db : Db} {index : ℕ} {m : LineMapping} {f : LineFigures} :
    readDocumentLine db index m = .ok f ↔
      (documentLineOf m).cells.Accepted f ∧ (documentLineOf m).taxAmount.Within fun q => 0 ≤ q := by
  simp only [readDocumentLine, RecordSchema.validate, bind_eq_ok, check_eq_ok, pure_eq_ok, documentLineSchema_eq_nil,
    draftOfLine_eq_ok]
  constructor
  · rintro ⟨_, ⟨-, -, -, -, hamount⟩, hloop⟩
    exact ⟨hloop, hamount⟩
  · rintro ⟨hloop, hamount⟩
    obtain ⟨hfigures, hvalid⟩ := hloop
    obtain ⟨hq, hp, hd, -, ht⟩ := MoneyCells.figures_eq_some.1 hfigures
    exact ⟨⟨⟩, ⟨.of_number hq fun h => ⟨hvalid.quantity.le, h⟩, ⟨within_unitPrice hp, fun _ _ => trivial⟩,
      .of_number hd fun _ => hvalid.discount, within_taxRate ht hvalid.taxRate hvalid.taxRate_le, hamount⟩,
      hfigures, hvalid⟩

theorem chargeFigures_eq_ok {pre : String} {line : ChargeLinePayload} {f : LineFigures} :
    chargeFigures pre line = .ok f ↔ line.cells.Accepted f := by
  simp only [chargeFigures, bind_eq_ok, check_eq_ok, pure_eq_ok, parseDecimal_eq_ok, MoneyCells.Accepted,
    MoneyCells.figures_eq_some, LineFigures.valid_iff, ChargeLinePayload.cells, number_orOne]
  constructor
  · rintro ⟨sent, hs, unitPrice, hp, discount, hd, _, hpos, _, hprice, _, hdiscount, tax, ht, _, hamount, _, hrate, rfl⟩
    exact ⟨⟨⟨sent, hs, rfl⟩, hp, hd, rfl, (resolveLineTax_eq_ok _).1 ⟨tax.1, ht⟩⟩, by tauto⟩
  · rintro ⟨⟨⟨sent, hs, hquantity⟩, hp, hd, hb, ht⟩, hvalid⟩
    obtain ⟨hpos, hprice, hdiscount, hle, hamount, hrate, hrate'⟩ := hvalid
    obtain ⟨field, hfield⟩ := (resolveLineTax_eq_ok pre).2 ht
    rw [hb] at hle hfield
    refine ⟨sent, hs, f.unitPrice, hp, f.discount, hd, ⟨⟩, ?_, ⟨⟩, hprice, ⟨⟩, ?_, (field, f.taxAmount, f.taxRate), ?_,
      ⟨⟩, hamount, ⟨⟩, ⟨hrate, hrate'⟩, ?_⟩
    · rwa [hquantity]
    · rw [hquantity]
      exact ⟨hdiscount, hle⟩
    · rwa [hquantity]
    · simp only [hquantity, ← hb]

/-- A line of a charge: the loop's cells, and three cells that the schema lets through. -/
theorem chargeLine_eq_ok {pre : String} {m : LineMapping} {f : LineFigures} :
    readChargeLine pre m = .ok f ↔
      (chargeLineOf m).cells.Accepted f ∧ (chargeLineOf m).taxAmount.Within (fun q => 0 ≤ q) ∧
        (chargeLineOf m).unitAmount.Within (fun _ => True) ∧ (chargeLineOf m).tax.Within fun q => 0 ≤ q ∧ q ≤ 100 := by
  simp only [readChargeLine, RecordSchema.validate, bind_eq_ok, check_eq_ok, chargeLineSchema_eq_nil,
    chargeFigures_eq_ok]
  constructor
  · rintro ⟨_, ⟨-, -, hunit, -, -, htax, hamount⟩, hloop⟩
    exact ⟨hloop, hamount, hunit, htax⟩
  · rintro ⟨hloop, hamount, hunit, htax⟩
    obtain ⟨hfigures, hvalid⟩ := hloop
    obtain ⟨hq, hp, hd, -, ht⟩ := MoneyCells.figures_eq_some.1 hfigures
    obtain ⟨sent, hsent, hquantity⟩ := number_orOne.1 hq
    refine ⟨⟨⟩, ⟨.of_number hsent fun h => ⟨?_, h⟩, ⟨within_unitPrice hp, fun _ _ => trivial⟩, hunit,
      .of_number hd fun _ => hvalid.discount, within_taxRate ht hvalid.taxRate hvalid.taxRate_le, htax, hamount⟩,
      hfigures, hvalid⟩
    split at hquantity
    · next hzero => exact hzero.ge
    · exact hquantity ▸ hvalid.quantity.le

/-! ## Cells that both schemas hand on alike -/

theorem normalizeField_of_ne {m : LineMapping} {n : String → Field ℚ} {field : String × List String} {key : String}
    (h : key ∉ field.1 :: field.2) : normalizeField m n field key = n key := by
  cases hsource : sourceKey m field with
  | none => simp only [normalizeField, hsource]
  | some source =>
    simp only [normalizeField, hsource]
    have hmem : source ∈ field.1 :: field.2 := List.mem_of_find?_eq_some hsource
    rw [if_neg, if_neg]
    · rintro rfl
      exact h hmem
    · rintro rfl
      exact h List.mem_cons_self

theorem quantity_eq (m : LineMapping) : (documentLineOf m).quantity = (chargeLineOf m).quantity := by
  simp [documentLineOf, chargeLineOf, normalizeMapping, documentMoneyFields, chargeMoneyFields, normalizeField_of_ne]

theorem normalizeField_self {m : LineMapping} {n : String → Field ℚ} (key : String) (aliases : List String) :
    normalizeField m n (key, aliases) key =
      ((sourceKey m (key, aliases)).map fun source => (m source).normalized).getD (n key) := by
  cases hsource : sourceKey m (key, aliases) with
  | none => simp [normalizeField, hsource]
  | some source => simp [normalizeField, hsource]

/-- A key that the mapping does not have is not there after a turn that does not write it. -/
theorem normalizeField_absent {m : LineMapping} {n : String → Field ℚ} {field : String × List String} {key : String}
    (hn : n key = .absent) (h : key ≠ field.1) : normalizeField m n field key = .absent := by
  cases hsource : sourceKey m field with
  | none => simpa only [normalizeField, hsource] using hn
  | some source =>
    simp only [normalizeField, hsource, if_neg h, hn]
    split <;> rfl

theorem normalizeField_congr {m : LineMapping} {n n' : String → Field ℚ} {field : String × List String}
    {key : String} (h : n key = n' key) : normalizeField m n field key = normalizeField m n' field key := by
  cases hsource : sourceKey m field with
  | none => simpa only [normalizeField, hsource] using h
  | some source => simp only [normalizeField, hsource, h]

theorem taxAmount_eq (m : LineMapping) : (documentLineOf m).taxAmount = (chargeLineOf m).taxAmount := by
  simp only [documentLineOf, chargeLineOf, normalizeMapping, documentMoneyFields, chargeMoneyFields, List.foldl_cons,
    List.foldl_nil]
  exact normalizeField_congr (by simp [normalizeField_of_ne])

/-! ## The comparison -/

/-- Both services accept the line with the same figures, or both refuse it. -/
def ReadingsAgree (db : Db) (index : ℕ) (pre : String) (m : LineMapping) : Prop :=
  (readDocumentLine db index m).toOption = (readChargeLine pre m).toOption

instance (db : Db) (index : ℕ) (pre : String) (m : LineMapping) : Decidable (ReadingsAgree db index pre m) :=
  inferInstanceAs (Decidable (_ = _))

/-- What the two loops read differently is not there: no quantity of zero, the same numbers handed on by
the two schemas, and nothing wrong with the cells that `CHARGE_LINE_SCHEMA` alone checks. -/
structure ReadAlike (m : LineMapping) : Prop where
  quantity : m "quantity" ≠ .value 0
  unitPrice : (documentLineOf m).cells.unitPrice.number 0 4 = (chargeLineOf m).cells.unitPrice.number 0 4
  discount : (documentLineOf m).discount.number 0 4 = (chargeLineOf m).discount.number 0 4
  tax : ∀ taxable ∈ (documentLineOf m).cells.taxable,
    (documentLineOf m).toTaxInput.resolved taxable = (chargeLineOf m).toTaxInput.resolved taxable
  unitAmount : (chargeLineOf m).unitAmount ≠ .malformed
  unusedTax : (chargeLineOf m).tax.Within fun q => 0 ≤ q ∧ q ≤ 100

theorem quantity_cell (m : LineMapping) : (chargeLineOf m).quantity = (m "quantity").normalized := by
  simp only [chargeLineOf, normalizeMapping, chargeMoneyFields, List.foldl_cons, List.foldl_nil]
  simp only [normalizeField_of_ne, List.mem_cons, String.reduceEq, List.not_mem_nil, or_self, not_false_eq_true]
  cases h : m "quantity" <;> simp [normalizeField, sourceKey, h, Cell.sent, Cell.normalized, Cell.raw]

theorem MoneyCells.figures_congr {c d : MoneyCells} (hq : c.quantity.number 1 3 = d.quantity.number 1 3)
    (hp : c.unitPrice.number 0 4 = d.unitPrice.number 0 4) (hd : c.discount.number 0 4 = d.discount.number 0 4)
    (ht : ∀ taxable ∈ c.taxable, c.toTaxInput.resolved taxable = d.toTaxInput.resolved taxable) :
    c.figures = d.figures := by
  unfold figures
  rw [← hq, ← hp, ← hd]
  cases hquantity : c.quantity.number 1 3 with
  | none => rfl
  | some quantity =>
    cases hprice : c.unitPrice.number 0 4 with
    | none => rfl
    | some unitPrice =>
      cases hdiscount : c.discount.number 0 4 with
      | none => rfl
      | some discount =>
        have htaxable : c.taxable = some (mul quantity unitPrice - discount) := by
          simp [taxable, hquantity, hprice, hdiscount]
        simp only [Option.bind_some, ht _ htaxable]

/-- Alike, the loops compute the same figures. -/
theorem ReadAlike.figures_eq {m : LineMapping} (h : ReadAlike m) :
    (documentLineOf m).cells.figures = (chargeLineOf m).cells.figures := by
  refine MoneyCells.figures_congr ?_ h.unitPrice h.discount h.tax
  simp only [LinePayload.cells, ChargeLinePayload.cells, quantity_eq, quantity_cell]
  cases hcell : m "quantity" with
  | absent | blank | hollow | malformed => rfl
  | value q =>
    have hne : q ≠ 0 := by
      rintro rfl
      exact h.quantity hcell
    simp [Cell.normalized, orOne, hne]

/-- Accepted by both with the same figures, the line is read alike. -/
theorem ReadAlike.of_accepted {m : LineMapping} {f : LineFigures} (hd : (documentLineOf m).cells.Accepted f)
    (hc : (chargeLineOf m).cells.Accepted f) (hunit : (chargeLineOf m).unitAmount.Within fun _ => True)
    (htax : (chargeLineOf m).tax.Within fun q => 0 ≤ q ∧ q ≤ 100) : ReadAlike m := by
  obtain ⟨hdq, hdp, hdd, hdb, hdt⟩ := MoneyCells.figures_eq_some.1 hd.1
  obtain ⟨-, hcp, hcd, -, hct⟩ := MoneyCells.figures_eq_some.1 hc.1
  refine ⟨fun hzero => ?_, hdp.trans hcp.symm, hdd.trans hcd.symm, fun taxable htaxable => ?_, hunit.1, htax⟩
  · have hcell : (documentLineOf m).cells.quantity = .value 0 := by
      simp only [LinePayload.cells, quantity_eq, quantity_cell, hzero, Cell.normalized]
    simp only [hcell, Field.number, Option.ite_none_right_eq_some, Option.some.injEq] at hdq
    exact hd.2.quantity.ne hdq.2
  · have heq : taxable = f.base - f.discount := by
      have h : (documentLineOf m).cells.taxable = some (f.base - f.discount) := by
        simp [MoneyCells.taxable, hdq, hdp, hdd, hdb]
      exact Option.some.inj (htaxable.symm.trans h)
    rw [heq]
    exact hdt.trans hct.symm

/-- Taken by itself, each service finds the cells it reads in order. -/
def DocumentInOrder (m : LineMapping) : Prop :=
  (∃ f, (documentLineOf m).cells.Accepted f) ∧ (documentLineOf m).taxAmount.Within fun q => 0 ≤ q

def ChargeInOrder (m : LineMapping) : Prop :=
  (∃ f, (chargeLineOf m).cells.Accepted f) ∧ (chargeLineOf m).taxAmount.Within (fun q => 0 ≤ q) ∧
    (chargeLineOf m).unitAmount.Within (fun _ => True) ∧ (chargeLineOf m).tax.Within fun q => 0 ≤ q ∧ q ≤ 100

theorem toOption_eq_some {α : Type} {x : Result α} {a : α} : x.toOption = some a ↔ x = .ok a := by
  cases x <;> simp [Except.toOption]

/-- **One line, two readings.** The services agree on a line exactly when neither finds it in order, or
it has none of the cells that they read differently. -/
theorem readings_agree_iff (db : Db) (index : ℕ) (pre : String) (m : LineMapping) :
    ReadingsAgree db index pre m ↔ ReadAlike m ∨ ¬DocumentInOrder m ∧ ¬ChargeInOrder m := by
  have hdocument (f : LineFigures) : (readDocumentLine db index m).toOption = some f ↔
      (documentLineOf m).cells.Accepted f ∧ (documentLineOf m).taxAmount.Within fun q => 0 ≤ q :=
    toOption_eq_some.trans documentLine_eq_ok
  have hcharge (f : LineFigures) := (toOption_eq_some (x := readChargeLine pre m) (a := f)).trans chargeLine_eq_ok
  constructor
  · intro h
    by_cases hnone : DocumentInOrder m ∨ ChargeInOrder m
    · left
      have hboth : ∃ f, (readDocumentLine db index m).toOption = some f ∧ (readChargeLine pre m).toOption = some f := by
        rcases hnone with ⟨⟨f, hf⟩, hamount⟩ | ⟨⟨f, hf⟩, hrest⟩
        · have hread := (hdocument f).2 ⟨hf, hamount⟩
          exact ⟨f, hread, h.symm.trans hread⟩
        · have hread := (hcharge f).2 ⟨hf, hrest⟩
          exact ⟨f, Eq.trans h hread, hread⟩
      obtain ⟨f, hd, hc⟩ := hboth
      obtain ⟨hcells, -, hunit, htax⟩ := (hcharge f).1 hc
      exact .of_accepted ((hdocument f).1 hd).1 hcells hunit htax
    · exact .inr (not_or.1 hnone)
  · rintro (halike | ⟨hno, hno'⟩)
    · refine Option.ext fun f => (hdocument f).trans (Iff.trans ?_ (hcharge f).symm)
      rw [MoneyCells.Accepted, MoneyCells.Accepted, halike.figures_eq, taxAmount_eq]
      have hunit : (chargeLineOf m).unitAmount.Within fun _ => True := ⟨halike.unitAmount, fun _ _ => trivial⟩
      have htax := halike.unusedTax
      tauto
    · have hd : (readDocumentLine db index m).toOption = none :=
        Option.eq_none_iff_forall_ne_some.2 fun f hf => hno ⟨⟨f, ((hdocument f).1 hf).1⟩, ((hdocument f).1 hf).2⟩
      have hc : (readChargeLine pre m).toOption = none :=
        Option.eq_none_iff_forall_ne_some.2 fun f hf => hno' ⟨⟨f, ((hcharge f).1 hf).1⟩, ((hcharge f).1 hf).2⟩
      exact hd.trans hc.symm

/-- A line of no units at 10, and a line of 100 with a tax of 5 beside a tax amount of 10. -/
def lineOfNone : LineMapping
  | "quantity" => .value 0
  | "unitPrice" => .value 10
  | _ => .absent

def lineWithTwoTaxes : LineMapping
  | "quantity" => .value 1
  | "unitPrice" => .value 100
  | "tax" => .value 5
  | "taxAmount" => .value 10
  | _ => .absent

/-- The charge takes one unit where the document refuses the line; and the document takes the rate where
the charge takes the amount. -/
theorem readings_disagree :
    ¬ (∀ (db : Db) (index : ℕ) (pre : String) (m : LineMapping), ReadingsAgree db index pre m) ∧
      (∃ f ∈ (readDocumentLine (Db.fresh usd) 0 lineWithTwoTaxes).toOption, f.taxAmount = 5) ∧
      ∃ f ∈ (readChargeLine "lines.0" lineWithTwoTaxes).toOption, f.taxAmount = 10 :=
  ⟨fun h => absurd (h (Db.fresh usd) 0 "lines.0" lineOfNone) (by decide +kernel), by decide +kernel, by decide +kernel⟩

theorem TaxInput.eq_of {a b : TaxInput} (hrate : a.taxRate = b.taxRate) (hamount : a.taxAmount = b.taxAmount)
    (htax : a.tax = b.tax) : a = b := by
  cases a
  cases b
  cases hrate
  cases hamount
  cases htax
  rfl

/-- Under the keys of the API, with a quantity that is not zero, a line is read alike. -/
theorem readAlike_of_canonical {m : LineMapping} (hquantity : m "quantity" ≠ .value 0)
    (hother : ∀ key ∈ ["unitAmount", "unit_amount", "discountAmount", "discount_amount", "tax"], m key = .absent) :
    ReadAlike m := by
  simp only [List.mem_cons, List.not_mem_nil, or_false, forall_eq_or_imp, forall_eq] at hother
  obtain ⟨hunit, hunit', hdiscount, hdiscount', htax⟩ := hother
  have hprice : (documentLineOf m).unitPrice = (chargeLineOf m).unitPrice := by
    simp only [documentLineOf, chargeLineOf, normalizeMapping, documentMoneyFields, chargeMoneyFields, List.foldl_cons,
      List.foldl_nil]
    simp [normalizeField_of_ne, normalizeField_self, sourceKey, List.find?, hunit, hunit', Cell.sent]
  have hdocUnit : (documentLineOf m).unitAmount = .absent := by
    simp only [documentLineOf, normalizeMapping, documentMoneyFields, List.foldl_cons, List.foldl_nil]
    simp [normalizeField_of_ne, normalizeField_absent, hunit, Cell.raw]
  have hchargeUnit : (chargeLineOf m).unitAmount = .absent := by
    simp only [chargeLineOf, normalizeMapping, chargeMoneyFields, List.foldl_cons, List.foldl_nil]
    simp [normalizeField_of_ne, normalizeField_self, sourceKey, List.find?, hunit, hunit', Cell.raw, Cell.sent]
  have hdisc : (documentLineOf m).discount = (chargeLineOf m).discount := by
    simp only [documentLineOf, chargeLineOf, normalizeMapping, documentMoneyFields, chargeMoneyFields, List.foldl_cons,
      List.foldl_nil]
    simp [normalizeField_of_ne, normalizeField_self, sourceKey, List.find?, hdiscount, hdiscount', Cell.sent]
  have hrate : (documentLineOf m).taxRate = (chargeLineOf m).taxRate := by
    simp only [documentLineOf, chargeLineOf, normalizeMapping, documentMoneyFields, chargeMoneyFields, List.foldl_cons,
      List.foldl_nil]
    simp [normalizeField_of_ne, normalizeField_self, sourceKey, List.find?, htax, Cell.sent]
  have hdocTax : (documentLineOf m).tax = .absent := by
    simp only [documentLineOf, normalizeMapping, documentMoneyFields, List.foldl_cons, List.foldl_nil]
    simp [normalizeField_of_ne, normalizeField_absent, htax, Cell.raw]
  have hchargeTax : (chargeLineOf m).tax = .absent := by
    simp only [chargeLineOf, normalizeMapping, chargeMoneyFields, List.foldl_cons, List.foldl_nil]
    simp [normalizeField_of_ne, normalizeField_self, sourceKey, List.find?, htax, Cell.raw, Cell.sent]
  have htaxInput : (documentLineOf m).toTaxInput = (chargeLineOf m).toTaxInput :=
    TaxInput.eq_of hrate (taxAmount_eq m) (hdocTax.trans hchargeTax.symm)
  refine ⟨hquantity, ?_, by rw [hdisc], fun _ _ => by rw [htaxInput], by simp [hchargeUnit],
    by simp [hchargeTax, Field.Within]⟩
  simp only [LinePayload.cells, ChargeLinePayload.cells, hprice, hdocUnit, hchargeUnit]

end LcsSystem
