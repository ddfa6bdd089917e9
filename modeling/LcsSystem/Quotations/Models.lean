import LcsSystem.Finance.Models
import LcsSystem.Lib.Selection

/-!
# Rows of the quotation schema

`src/backend/app/modules/quotations/models.py`, the master data that its service resolves, and the rows
of `modules/operations/models.py` that a conversion writes. Child rows carry the key of their parent, as
the tables do: which parent a writer reaches is what the service's statements decide.

Left out are the timestamps of a revision, its `data` (the reasons of a rejection) and the columns no
service writes: `place_id`, `container_requirement_id` of a quotation line. Of a quotation's `data` only
the three legacy route keys are read, by a conversion.
-/

namespace LcsSystem
open Calendar Relational

/-- A point in time, in microseconds. -/
abbrev Timestamp := ℤ

/-! ## Master data -/

structure CustomerParty where
  legalName : String
  /-- `status` is ACTIVE in any case. -/
  active : Bool
  deleted : Bool
  deriving DecidableEq

/-- A `trade_directions` or `transport_types` row. -/
structure NamedRecord where
  code : String
  name : String
  deleted : Bool
  deriving DecidableEq

structure ContainerType where
  code : String
  name : String
  deriving DecidableEq

structure PlaceRole where
  code : String
  name : String
  /-- `status` is ACTIVE in any case; an archived role is still found. -/
  active : Bool
  deriving DecidableEq

/-! ## Revisions -/

inductive RevisionStatus
  | draft | submitted | sent | accepted | converted | rejected | superseded | expired | cancelled
  deriving DecidableEq, Repr

namespace RevisionStatus

def code : RevisionStatus → String
  | draft => "DRAFT"
  | submitted => "SUBMITTED"
  | sent => "SENT"
  | accepted => "ACCEPTED"
  | converted => "CONVERTED"
  | rejected => "REJECTED"
  | superseded => "SUPERSEDED"
  | expired => "EXPIRED"
  | cancelled => "CANCELLED"

/-- `IMMUTABLE_STATUSES`. -/
def isImmutable (s : RevisionStatus) : Bool :=
  s ∈ [sent, accepted, submitted, converted, superseded, rejected, expired, cancelled]

theorem isImmutable_eq_false {s : RevisionStatus} : s.isImmutable = false ↔ s = draft := by
  cases s <;> decide

/-- A revision that can still be accepted or converted. -/
def isLive (s : RevisionStatus) : Bool := s ∈ [draft, sent, accepted, submitted]

end RevisionStatus

/-- The keys of `data` under which a quotation without route rows keeps its route. -/
structure LegacyRoute where
  pickup : Option String
  border : Option String
  delivery : Option String
  deriving DecidableEq

structure Quotation where
  quotationNo : String
  customerPartyId : ℕ
  tradeDirectionId : ℕ
  currentRevisionNo : ℕ
  /-- Any text: a save writes the status that the body names. -/
  status : String
  data : LegacyRoute
  deriving DecidableEq

structure QuotationRevision where
  quotationId : ℕ
  revisionNo : ℕ
  status : RevisionStatus
  quotationDate : Date
  validUntil : Option Date
  currencyCode : String
  description : Option String
  notes : Option String
  amounts : Amounts
  createdByUserId : Option ℕ
  deriving DecidableEq

/-- A `quotation_revision_places` or `service_order_places` row; only an order has an actual time. -/
structure RoutePlace where
  parentId : ℕ
  placeRoleId : Option ℕ
  placeRole : String
  sequenceNo : ℤ
  plannedAt : Option Timestamp
  actualAt : Option Timestamp
  freeText : Option String
  notes : Option String
  deriving DecidableEq

structure QuotationRevisionContainer where
  quotationRevisionId : ℕ
  containerTypeId : ℕ
  quantity : Quantity
  grossWeightKg : Option Quantity
  description : Option String
  remarks : Option String
  deriving DecidableEq

structure QuotationRevisionLine where
  quotationRevisionId : ℕ
  lineNo : ℕ
  feeTypeId : Option ℕ
  serviceDescription : String
  quantity : Quantity
  unitCode : Option String
  unitPrice : Money
  discountRate : TaxRate
  taxRate : TaxRate
  lineSubtotal : Money
  lineDiscount : Money
  lineTax : Money
  lineTotal : Money
  deriving DecidableEq

structure QuotationConversion where
  quotationRevisionId : ℕ
  serviceOrderId : ℕ
  convertedByUserId : Option ℕ
  idempotencyKey : Option String
  deriving DecidableEq

/-! ## Service orders -/

/-- A `service_orders` row as a conversion writes it. -/
structure QuotedOrder where
  serviceOrderNo : String
  quotationRevisionId : Option ℕ
  customerPartyId : ℕ
  tradeDirectionId : ℕ
  currencyCode : String
  description : Option String
  createdByUserId : Option ℕ
  deriving DecidableEq

structure ContainerRequirement where
  serviceOrderId : ℕ
  sourceQuotationContainerId : Option ℕ
  containerTypeId : ℕ
  quantity : Quantity
  grossWeightKg : Option Quantity
  description : Option String
  remarks : Option String
  deriving DecidableEq

/-- A `service_order_containers` row; without a number it is a box that is still to be collected. -/
structure OrderContainer where
  serviceOrderId : ℕ
  containerRequirementId : Option ℕ
  containerTypeId : ℕ
  containerNumber : Option String
  grossWeightKg : Option Quantity
  deriving DecidableEq

structure OrderPricing where
  serviceOrderId : ℕ
  amounts : Amounts
  currencyCode : String
  deriving DecidableEq

structure OrderPricingLine where
  serviceOrderPricingId : ℕ
  lineNo : ℕ
  sourceQuotationLineId : Option ℕ
  feeTypeId : Option ℕ
  description : String
  quantity : Quantity
  unitCode : Option String
  unitPrice : Money
  discountRate : TaxRate
  taxRate : TaxRate
  lineTotal : Money
  deriving DecidableEq

/-! ## The database -/

structure QuotationDb where
  defaultCurrency : String
  sequences : Table DocumentSequence
  parties : Table CustomerParty
  directions : Table NamedRecord
  transportTypes : Table NamedRecord
  containerTypes : Table ContainerType
  feeTypes : Table FeeType
  placeRoles : Table PlaceRole
  quotations : Table Quotation
  revisions : Table QuotationRevision
  containers : Table QuotationRevisionContainer
  places : Table RoutePlace
  lines : Table QuotationRevisionLine
  conversions : Table QuotationConversion
  orders : Table QuotedOrder
  orderPlaces : Table RoutePlace
  requirements : Table ContainerRequirement
  orderContainers : Table OrderContainer
  pricings : Table OrderPricing
  pricingLines : Table OrderPricingLine

namespace QuotationDb

/-- The three child collections of a revision, with their keys. -/
def containersOf (db : QuotationDb) (revisionId : ℕ) : List (ℕ × QuotationRevisionContainer) :=
  db.containers.select fun c => c.quotationRevisionId == revisionId

def placesOf (db : QuotationDb) (revisionId : ℕ) : List (ℕ × RoutePlace) :=
  db.places.select fun p => p.parentId == revisionId

def linesOf (db : QuotationDb) (revisionId : ℕ) : List (ℕ × QuotationRevisionLine) :=
  db.lines.select fun l => l.quotationRevisionId == revisionId

/-- `QuotationRepository.revisions`, in any order. -/
def revisionsOf (db : QuotationDb) (quotationId : ℕ) : List (ℕ × QuotationRevision) :=
  db.revisions.select fun r => r.quotationId == quotationId

end QuotationDb

/-- `ORDER BY revision_no DESC`. -/
def revisionOrder (a b : ℕ × QuotationRevision) : Prop := b.2.revisionNo ≤ a.2.revisionNo

instance : DecidableRel revisionOrder := fun a b => inferInstanceAs (Decidable (b.2.revisionNo ≤ a.2.revisionNo))

/-- `get_latest_revision`. -/
def latestRevision (db : QuotationDb) (quotationId : ℕ) : Option (ℕ × QuotationRevision) :=
  ((db.revisionsOf quotationId).insertionSort revisionOrder).head?

/-- `ORDER BY sequence_no, id`. -/
def placeOrder (a b : ℕ × RoutePlace) : Prop :=
  a.2.sequenceNo < b.2.sequenceNo ∨ a.2.sequenceNo = b.2.sequenceNo ∧ a.1 ≤ b.1

instance : DecidableRel placeOrder := fun _ _ => inferInstanceAs (Decidable (_ ∨ _ ∧ _))

theorem latestRevision_eq_some {db : QuotationDb} {quotationId : ℕ} {r : ℕ × QuotationRevision}
    (h : latestRevision db quotationId = some r) : db.revisions.get? r.1 = some r.2 ∧ r.2.quotationId = quotationId := by
  have hmem := List.mem_of_mem_head? (Option.mem_def.2 h)
  rw [List.mem_insertionSort, QuotationDb.revisionsOf] at hmem
  obtain ⟨hget, hparent⟩ := Table.mem_select.1 hmem
  exact ⟨hget, beq_iff_eq.1 hparent⟩

end LcsSystem
