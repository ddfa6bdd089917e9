import LcsSystem.Lib.Context
import LcsSystem.Quotations.OrderCopies
import LcsSystem.Quotations.RevisionLines
import LcsSystem.Quotations.RollUp

/-!
# Quoting a service order again

`create_quotation_from_service_order` (`src/backend/app/modules/quotations/service.py:1068-1187`) renders the
rows of an order as the body of a new quotation and saves it. The order keeps the total of a line but neither
its subtotal nor its tax: the tax is derived from the total. `money_requoted` says when that gives the tax back.

The column `source_service_order_id` of the new quotation is left out.
-/

namespace LcsSystem
open Relational DecimalArith Checks

/-! ## The body -/

/-- `ORDER BY line_no, id`. -/
def lineOrder (a b : ℕ × OrderPricingLine) : Prop := a.2.lineNo < b.2.lineNo ∨ a.2.lineNo = b.2.lineNo ∧ a.1 ≤ b.1

instance : DecidableRel lineOrder := fun _ _ => inferInstanceAs (Decidable (_ ∨ _ ∧ _))

/-- The priced lines of an order, none where it has no pricing. -/
def quotedLines (db : QuotationDb) (orderId : ℕ) : List OrderPricingLine :=
  match (db.pricingsOf orderId).head? with
  | some pricing => ((db.pricingLinesOf pricing.1).insertionSort lineOrder).map Prod.snd
  | none => []

/-- A key that is left out where its value is null or empty. -/
def filledField (s : Option String) : Field String := ((s.filter fun t => t ≠ "").map Field.value).getD .absent

/-- A key whose value may be null. -/
def nullField {α : Type} (a : Option α) : Field α := (a.map Field.value).getD .blank

/-- A stop of which anything but its number is filled in. -/
def RoutePlace.started (stop : RoutePlace) : Bool :=
  stop.placeRoleId.isSome || strip stop.placeRole != "" || strip (stop.freeText.getD "") != "" ||
    stop.plannedAt.isSome || strip (stop.notes.getD "") != ""

/-- The role by its id, else by its name. -/
def RoutePlace.roleKey (stop : RoutePlace) : Option Reference :=
  (stop.placeRoleId.map fun id => .text (toString id)).or
    (((some stop.placeRole).map strip).filter (fun name => name ≠ "") |>.map .text)

def requotedStop (stop : RoutePlace) : RouteStopPayload where
  started := stop.started
  id := .absent
  placeRoleId := (stop.placeRoleId.map fun id => Field.value (.text (toString id))).getD .absent
  placeRole := filledField (some stop.placeRole)
  place := filledField stop.freeText
  planned := (stop.plannedAt.map Field.value).getD .absent
  actual := .absent
  notes := filledField stop.notes

def requotedContainer (c : ContainerRequirement) : ContainerPayload where
  containerTypeId := .value (.text (toString c.containerTypeId))
  containerType := .absent
  quantity := .value c.quantity.val
  grossWeightKg := nullField (c.grossWeightKg.map Numeric.val)
  description := .absent
  remarks := nullField c.remarks

/-- The tax of a line, from its total. -/
def requotedTax (l : OrderPricingLine) : ℚ :=
  max 0 (l.lineTotal.val - (mul l.quantity.val l.unitPrice.val - l.discountRate.val))

def requotedLine (l : OrderPricingLine) : PricingLinePayload where
  feeTypeId := nullField (l.feeTypeId.map fun id => .text (toString id))
  feeType := .absent
  transportBy := .absent
  description := .value l.description
  quantity := .value l.quantity.val
  unitPrice := .value l.unitPrice.val
  unitAmount := .absent
  discount := .value l.discountRate.val
  discountAmount := .absent
  tax := .value (requotedTax l)
  taxAmount := .absent
  taxRate := .absent
  unit := nullField l.unitCode

/-- `direction.code or direction.name`. -/
def NamedRecord.key (direction : NamedRecord) : String := if direction.code = "" then direction.name else direction.code

/-- The currency of the pricing, of the order where it has none. -/
def quotedCurrency (db : QuotationDb) (orderId : ℕ) (order : QuotedOrder) : String :=
  let currency := (((db.pricingsOf orderId).head?).map fun p => p.2.currencyCode).getD order.currencyCode
  if currency = "" then db.defaultCurrency else currency

def requotation (env : Env) (db : QuotationDb) (orderId : ℕ) (order : QuotedOrder) (direction : NamedRecord) :
    QuotationPayload :=
  { QuotationPayload.empty with
    customerPartyId := .value (.text (toString order.customerPartyId))
    direction := .value direction.key
    date := .value env.today
    currency := .value (quotedCurrency db orderId order)
    description := nullField order.description
    status := .value "DRAFT"
    places := .value ((db.orderRoute orderId).map requotedStop)
    containerRequirements := .value ((db.requirementsOf orderId).map fun c => requotedContainer c.2)
    pricingLines := .value ((quotedLines db orderId).map requotedLine) }

/-- `create_quotation_from_service_order`: the ids of the new quotation and of its revision. -/
def createQuotationFromServiceOrder (env : Env) (db : QuotationDb) (orderId : ℕ) : Result (QuotationDb × ℕ × ℕ) := do
  let order ← require (db.orders.get? orderId) (.notFound "Service order not found.")
  let direction ← require (db.directions.get? order.tradeDirectionId)
    (.invalid "The service order has no trade direction." [("direction", "Required")])
  saveQuotation env db (requotation env db orderId order direction)

/-! ## The tax of one line -/

/-- **When a tax survives** the detour over the total: the product is no tie between two cents, and it has four
decimals at most or there is no tax and the product was not rounded up. -/
theorem money_requoted {x t : ℚ} (hx : 0 ≤ x) (ht : 0 ≤ t) (hcents : Scaled 2 t) :
    (Scaled 4 (max 0 (money x - x + t)) ∧ money (max 0 (money x - x + t)) = t) ↔
      money x - x ≠ 1 / 200 ∧ (Scaled 4 x ∨ t = 0 ∧ money x ≤ x) := by
  obtain ⟨hlow, hhigh⟩ := roundHalfUp_error (s := 2) hx
  rw [← money] at hlow hhigh
  have hmoney : Scaled 4 (money x) := (scaled_money x).mono (by decide)
  rcases le_or_gt (money x - x + t) 0 with hnone | hsome
  · -- the difference swallows the tax, so there is none
    have hzero : t = 0 := by
      obtain ⟨n, hn⟩ := scaled_iff.1 hcents
      have hn1 : (n : ℚ) < 1 := by
        rw [← hn]
        linarith
      have hn0 : (0 : ℚ) ≤ n := by
        rw [← hn]
        positivity
      have hn' : n = 0 := by
        have h1 : n < 1 := by exact_mod_cast hn1
        have h0 : 0 ≤ n := by exact_mod_cast hn0
        omega
      rw [hn', Int.cast_zero] at hn
      linarith
    rw [max_eq_left hnone, hzero]
    rw [hzero, add_zero] at hnone
    constructor
    · intro _
      exact ⟨by linarith, .inr ⟨rfl, by linarith⟩⟩
    · intro _
      exact ⟨scaled_zero 4, roundHalfUp_zero 2⟩
  · rw [max_eq_right hsome.le]
    have hscaled : Scaled 4 (money x - x + t) ↔ Scaled 4 x := by
      have htax : Scaled 4 t := hcents.mono (by decide)
      constructor
      · intro h
        have hback := (hmoney.sub h).add htax
        have heq : money x - (money x - x + t) + t = x := by ring
        rwa [heq] at hback
      · intro h
        exact (hmoney.sub h).add htax
    have htie : money (money x - x + t) = t ↔ money x - x ≠ 1 / 200 := by
      constructor
      · intro heq htie
        have hup : money (money x - x + t) = t + 1 / 100 := by
          refine roundHalfUp_eq hsome.le (hcents.add (scaled_iff.2 ⟨1, by norm_num⟩)) ?_ ?_
          · rw [htie]
            norm_num
            linarith
          · rw [htie]
            norm_num
            linarith
        rw [hup] at heq
        linarith
      · intro hne
        have hlt : (money x - x) * 10 ^ 2 < 1 / 2 := by
          refine lt_of_le_of_ne hhigh fun heq => hne ?_
          linarith
        refine roundHalfUp_eq hsome.le hcents ?_ ?_
        · linarith
        · linarith
    rw [hscaled, htie]
    constructor
    · rintro ⟨hplaces, hne⟩
      exact ⟨hne, .inl hplaces⟩
    · rintro ⟨hne, hplaces | ⟨hzero, hle⟩⟩
      · exact ⟨hplaces, hne⟩
      · rw [hzero] at hsome
        linarith

end LcsSystem
