import LcsSystem.MasterData.RouteStops

/-!
# The children of a revision

`_save_revision_children` (`src/backend/app/modules/quotations/service.py:264-411`): a child collection is
replaced when the body carries its key. The containers and the priced lines are deleted and written anew,
the route is written in place; the four totals of the revision are the sums over its lines.

A body is read after its keys were matched with the aliases of `schemas.py`. Where a line carries a key and
an alias of it both, the service still sees the alias: `unitAmount`, `discountAmount` and `taxAmount`. The
last two are absent here where they are null.
-/

namespace LcsSystem
open Calendar Relational DecimalArith Checks

/-! ## Payloads -/

structure ContainerPayload where
  containerTypeId : Field Reference
  containerType : Field Reference
  quantity : Field ℚ
  grossWeightKg : Field ℚ
  description : Field String
  remarks : Field String

structure PricingLinePayload where
  feeTypeId : Field Reference
  feeType : Field Reference
  transportBy : Field Reference
  description : Field String
  quantity : Field ℚ
  unitPrice : Field ℚ
  unitAmount : Field ℚ
  discount : Field ℚ
  discountAmount : Field ℚ
  tax : Field ℚ
  taxAmount : Field ℚ
  taxRate : Field ℚ
  unit : Field String

structure QuotationPayload where
  /-- Malformed when it is no number. -/
  id : Field ℕ
  quotationId : Field ℕ
  quotationNo : Field String
  customerPartyId : Field Reference
  customer : Field String
  direction : Field String
  status : Field String
  date : Field Date
  quotationDate : Field Date
  validUntil : Field Date
  currency : Field String
  description : Field String
  notes : Field String
  amount : Field ℚ
  totalSelling : Field ℚ
  totalAmount : Field ℚ
  total : Field ℚ
  containerRequirements : Field (List ContainerPayload)
  places : Field (List RouteStopPayload)
  pricingLines : Field (List PricingLinePayload)
  lines : Field (List PricingLinePayload)
  /-- Kept in `data`; what is not blank reads as its text. -/
  pickup : Field String
  border : Field String
  delivery : Field String

/-- A body `{}`. -/
def QuotationPayload.empty : QuotationPayload where
  id := .absent
  quotationId := .absent
  quotationNo := .absent
  customerPartyId := .absent
  customer := .absent
  direction := .absent
  status := .absent
  date := .absent
  quotationDate := .absent
  validUntil := .absent
  currency := .absent
  description := .absent
  notes := .absent
  amount := .absent
  totalSelling := .absent
  totalAmount := .absent
  total := .absent
  containerRequirements := .absent
  places := .absent
  pricingLines := .absent
  lines := .absent
  pickup := .absent
  border := .absent
  delivery := .absent

/-- `CONTAINER_REQUIREMENT_SCHEMA`. -/
def containerRequirementSchema (c : ContainerPayload) : List FieldErrorItem :=
  Reference.check "containerTypeId" none c.containerTypeId ++
  Reference.check "containerType" (some 64) c.containerType ++
  DecimalSpec.check { key := "quantity", minimum := some zeroBound, decimalPlaces := some 3 } c.quantity ++
  DecimalSpec.check { key := "grossWeightKg", minimum := some zeroBound, decimalPlaces := some 3 } c.grossWeightKg ++
  TextSpec.check { key := "description", maxLength := some 2000 } c.description ++
  TextSpec.check { key := "remarks", maxLength := some 2000 } c.remarks

/-- `PRICING_LINE_SCHEMA`. -/
def pricingLineSchema (line : PricingLinePayload) : List FieldErrorItem :=
  Reference.check "feeTypeId" none line.feeTypeId ++
  Reference.check "feeType" (some 255) line.feeType ++
  Reference.check "transportBy" (some 255) line.transportBy ++
  TextSpec.check { key := "description", maxLength := some 1000 } line.description ++
  DecimalSpec.check { key := "quantity", minimum := some zeroBound, decimalPlaces := some 3 } line.quantity ++
  DecimalSpec.check { key := "unitPrice" } line.unitPrice ++
  DecimalSpec.check { key := "discount", minimum := some zeroBound } line.discount ++
  DecimalSpec.check { key := "tax", minimum := some zeroBound } line.tax ++
  DecimalSpec.check { key := "taxRate", minimum := some zeroBound, maximum := some ⟨100, "100"⟩ } line.taxRate ++
  TextSpec.check { key := "unit", maxLength := some 32 } line.unit

/-! ## Containers -/

/-- The type a container names, by id or by a name that may be new. -/
def containerTypeOf (types : Table ContainerType) (c : ContainerPayload) : Result (Table ContainerType × ℕ) :=
  match c.containerTypeId.reference? with
  | some reference => do
    let id ← require reference.number (.database "invalid literal for int()")
    return (types, id)
  | none => do
    let resolved := resolveOrCreateContainerType types c.containerType.reference?
    let id ← require resolved.2 (.invalid "Container type is required." [("containerType", "Required")])
    return (resolved.1, id)

/-- A weight of zero is none. -/
def grossWeight (c : ContainerPayload) : Result (Option Quantity) :=
  match c.grossWeightKg.get?.filter fun q => q ≠ 0 with
  | some q => some <$> store 12 3 q
  | none => .ok none

def insertContainer (revisionId : ℕ) (db : QuotationDb) (c : ContainerPayload) : Result QuotationDb := do
  let (containerTypes, containerTypeId) ← containerTypeOf db.containerTypes c
  let quantity ← store 12 3 (c.quantity.get?.getD 1)
  let grossWeightKg ← grossWeight c
  return { db with
    containerTypes := containerTypes
    containers := db.containers.insert
      ⟨revisionId, containerTypeId, quantity, grossWeightKg, none, c.remarks.text.get?⟩ }

def saveContainers (db : QuotationDb) (revisionId : ℕ) (p : QuotationPayload) : Result QuotationDb :=
  if p.containerRequirements.sent then do
    let rows ← rowsOf containerRequirementSchema p.containerRequirements "containerRequirements"
    let cleared := { db with containers := db.containers.erase fun _ c => c.quotationRevisionId == revisionId }
    rows.foldlM (insertContainer revisionId) cleared
  else .ok db

/-! ## Route -/

def savePlaces (db : QuotationDb) (revisionId : ℕ) (p : QuotationPayload) : Result QuotationDb :=
  if p.places.sent then do
    let places ← saveRouteStops db.placeRoles false db.places revisionId p.places
    return { db with places := places }
  else .ok db

/-! ## Priced lines -/

/-- `_money`: to cents. -/
def money (x : ℚ) : ℚ := roundHalfUp 2 x

/-- What the columns of a priced line are assigned. -/
structure PricedLine where
  quantity : ℚ
  unitPrice : ℚ
  discount : ℚ
  taxRate : ℚ
  subtotal : ℚ
  tax : ℚ
  feeTypeId : Option ℕ
  serviceDescription : String
  unitCode : Option String
  deriving DecidableEq

def PricedLine.total (l : PricedLine) : ℚ := money (l.subtotal - l.discount + l.tax)

/-- The amount and the rate of a line's tax. A rate wins; an amount is rounded to cents. -/
def pricedTax (line : PricingLinePayload) (taxable : ℚ) (pre : String) : Result (ℚ × ℚ) :=
  if line.taxRate.given then do
    let rate ← parseDecimal line.taxRate (pre ++ ".taxRate") 0 4
    return (money (div (mul taxable rate) 100), rate)
  else do
    let amount ← parseDecimal (if line.taxAmount.sent then line.taxAmount else line.tax) (pre ++ ".tax") 0 4
    let tax := money amount
    return (tax, if 0 < taxable then mul (div tax taxable) 100 else 0)

/-- The errors of one line, keyed by cell. -/
def pricedLineErrors (pre : String) (quantity unitPrice discount subtotal : ℚ) (tax : ℚ × ℚ) (unknownTransport : Prop)
    [Decidable unknownTransport] : List (String × String) :=
  []
  |> addError (quantity ≤ 0) (pre ++ ".quantity") "Must be greater than zero."
  |> addError (unitPrice < 0) (pre ++ ".unitPrice") "Cannot be negative."
  |> addError (discount < 0 ∨ subtotal < discount) (pre ++ ".discount") "Must be between zero and the line subtotal."
  |> addError (tax.1 < 0) (pre ++ ".tax") "Cannot be negative."
  |> addError (tax.2 < 0 ∨ 100 < tax.2) (pre ++ ".taxRate") "Must be between 0 and 100."
  |> addError unknownTransport (pre ++ ".transportBy") "Choose a valid transport type."

/-- One turn of the loop over the lines. -/
def pricedLine (db : QuotationDb) (index : ℕ) (line : PricingLinePayload) : Result PricedLine := do
  let pre := "pricingLines." ++ toString index
  let unitValue := if line.unitPrice.given then line.unitPrice else line.unitAmount
  let quantity ← parseDecimal line.quantity (pre ++ ".quantity") 1 3
  let unitPrice ← parseDecimal unitValue (pre ++ ".unitPrice") 0 4
  let entered ← parseDecimal (if line.discountAmount.sent then line.discountAmount else line.discount)
    (pre ++ ".discount") 0 4
  let discount := money entered
  let subtotal := money (mul quantity unitPrice)
  let tax ← pricedTax line (max 0 (subtotal - discount)) pre
  let transportBy := line.transportBy.reference?
  let errors := pricedLineErrors pre quantity unitPrice discount subtotal tax
    (transportBy.isSome ∧ (resolveTransportBy db.transportTypes transportBy).isNone)
  check (errors = []) (.invalid "Please correct the quotation lines." errors)
  return {
    quantity, unitPrice, discount, subtotal
    taxRate := tax.2
    tax := tax.1
    feeTypeId := resolveReferenceId db.feeTypes line.feeTypeId.reference? line.feeType.reference?
    serviceDescription :=
      (line.description.text.get?.or (line.feeType.reference?.map Reference.asText)).getD "Service"
    unitCode := line.unit.text.get? }

def pricedLinesFrom (db : QuotationDb) : ℕ → List PricingLinePayload → Result (List PricedLine)
  | _, [] => .ok []
  | index, line :: lines => do
    let priced ← pricedLine db index line
    let rest ← pricedLinesFrom db (index + 1) lines
    return priced :: rest

/-- The row of a line: every column rounds on its own. `discount_rate` is assigned the discount. -/
def PricedLine.row (revisionId lineNo : ℕ) (l : PricedLine) : Result QuotationRevisionLine := do
  let quantity ← store 12 3 l.quantity
  let unitPrice ← storeMoney l.unitPrice
  let discountRate ← store 7 4 l.discount
  let taxRate ← store 7 4 l.taxRate
  let lineSubtotal ← storeMoney l.subtotal
  let lineDiscount ← storeMoney l.discount
  let lineTax ← storeMoney l.tax
  let lineTotal ← storeMoney l.total
  return {
    quotationRevisionId := revisionId
    lineNo
    feeTypeId := l.feeTypeId
    serviceDescription := l.serviceDescription
    unitCode := l.unitCode
    quantity, unitPrice, discountRate, taxRate, lineSubtotal, lineDiscount, lineTax, lineTotal }

def pricedRowsFrom (revisionId : ℕ) : ℕ → List PricedLine → Result (List QuotationRevisionLine)
  | _, [] => .ok []
  | lineNo, l :: ls => do
    let row ← l.row revisionId lineNo
    let rows ← pricedRowsFrom revisionId (lineNo + 1) ls
    return row :: rows

/-- The totals of the revision: the sums over its lines, to cents. -/
def pricedAmounts (ls : List PricedLine) : Result Amounts := do
  let subtotal ← storeMoney (money (ls.map PricedLine.subtotal).sum)
  let discount ← storeMoney (money (ls.map PricedLine.discount).sum)
  let tax ← storeMoney (money (ls.map PricedLine.tax).sum)
  let total ← storeMoney (money (ls.map PricedLine.total).sum)
  return { subtotal, discount, tax, total }

/-- `data["pricingLines"]`, else `data["lines"]`; none when the body has neither key. -/
def QuotationPayload.pricedRows (p : QuotationPayload) : Option (Field (List PricingLinePayload)) :=
  [p.pricingLines, p.lines].find? Field.sent

def savePricingLines (db : QuotationDb) (revisionId : ℕ) (p : QuotationPayload) : Result QuotationDb :=
  match p.pricedRows with
  | none => .ok db
  | some sent => do
    let payloads ← rowsOf pricingLineSchema sent "pricingLines"
    let priced ← pricedLinesFrom db 0 payloads
    let rows ← pricedRowsFrom revisionId 1 priced
    let amounts ← pricedAmounts priced
    return { db with
      lines := (db.lines.erase fun _ l => l.quotationRevisionId == revisionId).insertAll rows
      revisions := db.revisions.modify revisionId fun r => { r with amounts := amounts } }

/-- `_save_revision_children`. -/
def saveRevisionChildren (db : QuotationDb) (revisionId : ℕ) (p : QuotationPayload) : Result QuotationDb := do
  let db ← saveContainers db revisionId p
  let db ← savePlaces db revisionId p
  savePricingLines db revisionId p

end LcsSystem
