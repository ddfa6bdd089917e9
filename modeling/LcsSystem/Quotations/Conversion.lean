import LcsSystem.Quotations.Revisions

/-!
# Converting a revision to a service order

`create_service_order_from_quotation` (`src/backend/app/modules/operations/service.py:484-630`) copies a
revision and its children into the rows of a new order; `convert_revision`
(`modules/quotations/service.py:1024-1075`) does so once for a quotation and replays a repeated request;
`delete_quotations` (`modules/quotations/service.py:1190-1229`) spares a quotation with an order.

The configuration version that an order is stamped with is left out.
-/

namespace LcsSystem
open Relational DecimalArith Checks

/-! ## The order -/

/-- The route of a quotation that has no route rows: the header keys, in this order. -/
def LegacyRoute.stops (data : LegacyRoute) : List (String × String) :=
  [("PICKUP", data.pickup), ("BORDER", data.border), ("DELIVERY", data.delivery)].filterMap fun s =>
    s.2.map fun text => (s.1, text)

/-- The route rows of the order, numbered anew. -/
def orderStops (db : QuotationDb) (data : LegacyRoute) (revisionId orderId : ℕ) : List RoutePlace :=
  match (db.placesOf revisionId).insertionSort placeOrder with
  | [] => data.stops.zipIdx.map fun s => {
      RoutePlace.new orderId with
      placeRole := s.1.1
      freeText := some s.1.2
      sequenceNo := s.2 + 1 }
  | stops => stops.zipIdx.map fun s => { s.1.2 with parentId := orderId, sequenceNo := s.2 + 1, actualAt := none }

/-- `max(1, int(source.quantity or 1))`. -/
def boxCount (quantity : Quantity) : ℕ := max 1 ⌊if quantity.val = 0 then 1 else quantity.val⌋.toNat

/-- A requirement, and a pending box for every unit of it. -/
def insertRequirement (orderId : ℕ) (written : Table ContainerRequirement × Table OrderContainer)
    (source : ℕ × QuotationRevisionContainer) : Table ContainerRequirement × Table OrderContainer :=
  let requirement : ContainerRequirement := {
    serviceOrderId := orderId
    sourceQuotationContainerId := some source.1
    containerTypeId := source.2.containerTypeId
    quantity := source.2.quantity
    grossWeightKg := source.2.grossWeightKg
    description := source.2.description
    remarks := source.2.remarks }
  let box : OrderContainer :=
    ⟨orderId, some written.1.nextId, source.2.containerTypeId, none, source.2.grossWeightKg⟩
  (written.1.insert requirement, written.2.insertAll (List.replicate (boxCount source.2.quantity) box))

def QuotationRevisionLine.pricingLine (pricingId : ℕ) (line : ℕ × QuotationRevisionLine) : OrderPricingLine where
  serviceOrderPricingId := pricingId
  lineNo := line.2.lineNo
  sourceQuotationLineId := some line.1
  feeTypeId := line.2.feeTypeId
  description := line.2.serviceDescription
  quantity := line.2.quantity
  unitCode := line.2.unitCode
  unitPrice := line.2.unitPrice
  discountRate := line.2.discountRate
  taxRate := line.2.taxRate
  lineTotal := line.2.lineTotal

def createServiceOrderFromQuotation (env : Env) (db : QuotationDb) (quotation : Quotation)
    (revision : ℕ × QuotationRevision) : Result (QuotationDb × ℕ) := do
  let (sequences, number) := allocateNumber env db.sequences "SERVICE_ORDER"
  check (∀ o ∈ db.orders.values, o.serviceOrderNo ≠ number)
    (.database "duplicate key value violates unique constraint uq_service_orders_no")
  let currency := if revision.2.currencyCode = "" then db.defaultCurrency else revision.2.currencyCode
  let orderId := db.orders.nextId
  let order : QuotedOrder := {
    serviceOrderNo := number
    quotationRevisionId := some revision.1
    customerPartyId := quotation.customerPartyId
    tradeDirectionId := quotation.tradeDirectionId
    currencyCode := currency
    description := revision.2.description
    createdByUserId := env.userId }
  let (requirements, orderContainers) :=
    (db.containersOf revision.1).foldl (insertRequirement orderId) (db.requirements, db.orderContainers)
  return ({ db with
    sequences := sequences
    orders := db.orders.insert order
    orderPlaces := db.orderPlaces.insertAll (orderStops db quotation.data revision.1 orderId)
    requirements := requirements
    orderContainers := orderContainers
    pricings := db.pricings.insert ⟨orderId, revision.2.amounts, currency⟩
    pricingLines := db.pricingLines.insertAll
      ((db.linesOf revision.1).map (QuotationRevisionLine.pricingLine db.pricings.nextId)) }, orderId)

/-! ## The conversion -/

def duplicateConversion : Error :=
  .conflict "DUPLICATE_CONVERSION" "This quotation was already converted to a service order." []

/-- `_conversion_by_key`; an empty key is none. -/
def conversionByKey (db : QuotationDb) (idempotencyKey : Option String) : Option QuotationConversion :=
  (idempotencyKey.filter fun key => key ≠ "").bind fun key =>
    db.conversions.values.find? fun c => c.idempotencyKey == some key

/-- `conversion_for_quotation`. -/
def conversionForQuotation (db : QuotationDb) (quotationId : ℕ) : Option QuotationConversion :=
  db.conversions.values.find? fun c =>
    (db.revisions.get? c.quotationRevisionId).any fun r => r.quotationId == quotationId

/-- The three unique constraints of `quotation_conversions`. -/
def ConversionUnique (db : QuotationDb) (c : QuotationConversion) : Prop :=
  ∀ old ∈ db.conversions.values, old.quotationRevisionId ≠ c.quotationRevisionId ∧
    old.serviceOrderId ≠ c.serviceOrderId ∧ (c.idempotencyKey.isSome → old.idempotencyKey ≠ c.idempotencyKey)

instance (db : QuotationDb) (c : QuotationConversion) : Decidable (ConversionUnique db c) :=
  inferInstanceAs (Decidable (∀ old ∈ db.conversions.values, _))

/-- What follows the check for a replay; the id is that of the order. -/
def convertNew (env : Env) (db : QuotationDb) (revisionId : ℕ) (idempotencyKey : Option String) :
    Result (QuotationDb × ℕ) := do
  let (quotation, revision) ← revisionWithQuotation db revisionId
  check ((conversionForQuotation db revision.quotationId).isNone) duplicateConversion
  check (revision.status ∈ [.submitted, .sent, .accepted])
    (.invalidState "Only a submitted revision can be converted to a service order.")
  let (ordered, orderId) ← createServiceOrderFromQuotation env db quotation (revisionId, revision)
  let conversion : QuotationConversion := ⟨revisionId, orderId, env.userId, idempotencyKey⟩
  check (ConversionUnique ordered conversion) duplicateConversion
  let recorded : QuotationDb := { ordered with conversions := ordered.conversions.insert conversion }
  return (setQuotationStatus (setRevisionStatus recorded revisionId .converted) revision.quotationId .converted, orderId)

/-- `convert_revision`: a key that was used returns the order of its conversion. -/
def convertRevision (env : Env) (db : QuotationDb) (revisionId : ℕ) (idempotencyKey : Option String) :
    Result (QuotationDb × ℕ) :=
  match conversionByKey db idempotencyKey with
  | some conversion => do
    let _ ← revisionWithQuotation db conversion.quotationRevisionId
    return (db, conversion.serviceOrderId)
  | none => convertNew env db revisionId idempotencyKey

/-! ## Deletion -/

/-- The conversion belongs to a revision of the quotation. -/
def QuotationConversion.isOf (db : QuotationDb) (quotationId : ℕ) (c : QuotationConversion) : Bool :=
  (db.revisions.get? c.quotationRevisionId).any fun r => r.quotationId == quotationId

def QuotationConversion.isDangling (db : QuotationDb) (c : QuotationConversion) : Bool :=
  (db.orders.get? c.serviceOrderId).isNone

/-- `DELETE` of a quotation, which takes its revisions and their children along. -/
def removeQuotation (db : QuotationDb) (id : ℕ) : QuotationDb :=
  let ofQuotation (revisionId : ℕ) : Bool := (db.revisions.get? revisionId).any fun r => r.quotationId == id
  { db with
    quotations := db.quotations.erase fun i _ => i == id
    revisions := db.revisions.erase fun _ r => r.quotationId == id
    containers := db.containers.erase fun _ c => ofQuotation c.quotationRevisionId
    places := db.places.erase fun _ p => ofQuotation p.parentId
    lines := db.lines.erase fun _ l => ofQuotation l.quotationRevisionId }

/-- One turn of `delete_quotations`; an order or a conversion that still names a revision keeps the quotation. -/
def deleteQuotation (db : QuotationDb) (id : ℕ) : Result QuotationDb :=
  match db.quotations.get? id with
  | none => .ok db
  | some quotation => do
    check (∀ c ∈ conversionForQuotation db id, c.isDangling db = true)
      (.conflict "QUOTATION_HAS_SERVICE_ORDER"
        (quotation.quotationNo ++ " is linked to a service order and cannot be deleted.") [])
    let conversions := db.conversions.erase fun _ c => c.isOf db id && c.isDangling db
    check (∀ c ∈ conversions.values, c.isOf db id = false)
      (.database "update or delete violates foreign key constraint on quotation_conversions")
    check (∀ o ∈ db.orders.values, ∀ revisionId ∈ o.quotationRevisionId,
        ∀ r ∈ db.revisions.get? revisionId, r.quotationId ≠ id)
      (.database "update or delete violates foreign key constraint on service_orders")
    return removeQuotation { db with conversions := conversions } id

/-- `delete_quotations`. -/
def deleteQuotations (db : QuotationDb) (ids : List ℕ) : Result QuotationDb := ids.foldlM deleteQuotation db

end LcsSystem
