import LcsSystem.MasterData.CurrencyRates
import LcsSystem.Lib.Checks

/-!
# Allocating payments and unwinding allocations

`allocate_payment` (`src/backend/app/modules/finance/service.py:1430-1535`), the allocation trigger
`fn_guard_allocation`, and the part of `reverse_document` that undoes allocations (`:1380-1403`).
The checks and the writes are functions of the rows that were read, so a request can be run at once
or with other requests between its reads and its writes.
-/

namespace LcsSystem
open Relational DecimalArith Checks

/-! ## Requests and answers -/

structure AllocationPayload where
  targetDocumentId : Field ℕ
  amount : Field ℚ
  deriving DecidableEq

/-- `ALLOCATION_WRITE_SCHEMA`. -/
def allocationWriteSchema (p : AllocationPayload) : List FieldErrorItem :=
  (match p.targetDocumentId with
    | .malformed => [⟨"targetDocumentId", "INVALID_TYPE", "Choose a valid record."⟩]
    | _ => []) ++
  DecimalSpec.check { key := "amount", minimum := some ⟨1 / 10000, "0.0001"⟩, decimalPlaces := some 4 } p.amount

structure AllocationResult where
  paymentDocumentId : ℕ
  targetDocumentId : ℕ
  allocatedAmount : ℚ
  paymentBaseAmount : ℚ
  targetBaseAmount : ℚ
  exchangeDifference : ℚ
  paymentBalance : ℚ
  targetOutstanding : ℚ
  idempotentReplay : Bool
  deriving DecidableEq

/-- `rate or Decimal("1")`. -/
def rateOrOne (rate : ℚ) : ℚ := if rate = 0 then 1 else rate

/-- `_allocation_fx`: the base value of an amount on each side, and their difference. -/
def allocationFx (amount paymentRate targetRate : ℚ) (precision : ℕ) : ℚ × ℚ × ℚ :=
  let paymentBase := convertToBase amount (rateOrOne paymentRate) precision
  let targetBase := convertToBase amount (rateOrOne targetRate) precision
  (paymentBase, targetBase, quantizeMoney (paymentBase - targetBase) precision)

def outstanding (d : Document) : ℚ := d.amounts.total.val - d.paidAmount.val

/-- The stored allocation an idempotency key names; an empty key names none. -/
def allocationOfKey (db : Db) (key : Option String) : Option FinancialDocumentAllocation :=
  match key with
  | none => none
  | some "" => none
  | some k => db.allocations.values.find? fun a => a.idempotencyKey == some k

/-- The answer to a repeated key: the stored row, not the request. -/
def replayResult (db : Db) (existing : FinancialDocumentAllocation) : AllocationResult :=
  let payment := db.documents.get? existing.paymentDocumentId
  let target := db.documents.get? existing.targetDocumentId
  let fx := allocationFx existing.allocatedAmount.val existing.exchangeRate.val
    ((target.map fun d => d.exchangeRate.val).getD existing.exchangeRate.val)
    (precisionOf db existing.allocatedCurrencyCode)
  { paymentDocumentId := existing.paymentDocumentId
    targetDocumentId := existing.targetDocumentId
    allocatedAmount := existing.allocatedAmount.val
    paymentBaseAmount := fx.1
    targetBaseAmount := fx.2.1
    exchangeDifference := fx.2.2
    paymentBalance := (payment.map outstanding).getD 0
    targetOutstanding := (target.map outstanding).getD 0
    idempotentReplay := true }

/-! ## Checks -/

/-- The checks on the two locked rows. -/
def checkAllocation (payment target : Document) (amount : ℚ) : Result PUnit := do
  check (payment.documentType.isPayment = true)
    (.invalid "Only payment or receipt documents can be allocated." [])
  check (target.documentType.isAllocatable = true)
    (.invalid "Allocations must target an invoice or supplier bill." [])
  check (payment.status = .posted ∧ target.status = .posted)
    (.invalidState "Both payment and target documents must be posted.")
  check (payment.currencyCode = target.currencyCode)
    (.conflict "CURRENCY_MISMATCH" "Payment and target currency must match." [])
  check (0 < amount) (.invalid "Allocated amount must be greater than zero." [])

/-- What a payment pays out, and what a target received. -/
def paidOut (allocations : List FinancialDocumentAllocation) (paymentId : ℕ) : ℚ :=
  ((allocations.filter fun a => a.paymentDocumentId == paymentId).map fun a => a.allocatedAmount.val).sum

def received (allocations : List FinancialDocumentAllocation) (targetId : ℕ) : ℚ :=
  ((allocations.filter fun a => a.targetDocumentId == targetId).map fun a => a.allocatedAmount.val).sum

def exceedsBalance (message : String) : Error := .conflict "ALLOCATION_EXCEEDS_BALANCE" message []

/-- The service's own balance checks. -/
def checkBalance (payment target : Document) (allocatedSoFar amount : ℚ) : Result PUnit := do
  check (amount ≤ payment.amounts.total.val - allocatedSoFar)
    (exceedsBalance "Allocation exceeds the available payment balance.")
  check (amount ≤ outstanding target) (exceedsBalance "Allocation exceeds the target outstanding balance.")

/-- `fn_guard_allocation`, over the rows committed at that moment. -/
def guardAllocation (db : Db) (a : FinancialDocumentAllocation) : Result PUnit := do
  let payment ← require (db.documents.get? a.paymentDocumentId)
    (.database "Allocation must reference existing financial documents")
  let target ← require (db.documents.get? a.targetDocumentId)
    (.database "Allocation must reference existing financial documents")
  check (paidOut db.allocations.values a.paymentDocumentId + a.allocatedAmount.val ≤ payment.amounts.total.val)
    (.database "Allocation exceeds the remaining balance of payment document")
  check (received db.allocations.values a.targetDocumentId + a.allocatedAmount.val ≤ target.amounts.total.val)
    (.database "Allocation exceeds the remaining balance of document")

/-! ## Writes -/

def setPaid (paid : Money) (d : Document) : Document := { d with paidAmount := paid }

/-- `INSERT INTO financial_document_allocations`, under the trigger and the unique key. -/
def insertAllocation (db : Db) (a : FinancialDocumentAllocation) : Result Db := do
  guardAllocation db a
  check (∀ old ∈ db.allocations.values, a.idempotencyKey.isSome → old.idempotencyKey ≠ a.idempotencyKey)
    (.database "duplicate key value violates unique constraint on idempotency_key")
  return { db with allocations := db.allocations.insert a }

/-- The row `allocate_payment` adds, from the rows it read. -/
def newAllocation (env : Env) (paymentId targetId : ℕ) (payment : Document) (amount : Money)
    (key : Option String) : FinancialDocumentAllocation where
  paymentDocumentId := paymentId
  targetDocumentId := targetId
  allocatedAmount := amount
  allocatedCurrencyCode := payment.currencyCode
  exchangeRate := payment.exchangeRate
  createdByUserId := env.userId
  idempotencyKey := key

/-- The flush of `allocate_payment`: the allocation, and both paid amounts from the rows that were
read. -/
def writeAllocation (env : Env) (db : Db) (paymentId targetId : ℕ) (payment target : Document) (amount : ℚ)
    (key : Option String) : Result Db := do
  let stored ← storeMoney amount
  let paymentPaid ← storeMoney (payment.paidAmount.val + amount)
  let targetPaid ← storeMoney (target.paidAmount.val + amount)
  let db ← insertAllocation db (newAllocation env paymentId targetId payment stored key)
  return { db with
    documents := (db.documents.modify paymentId (setPaid paymentPaid)).modify targetId (setPaid targetPaid) }

def allocationResult (db : Db) (paymentId targetId : ℕ) (payment target : Document) (amount : ℚ) :
    AllocationResult :=
  let fx := allocationFx amount payment.exchangeRate.val target.exchangeRate.val (precisionOf db payment.currencyCode)
  { paymentDocumentId := paymentId
    targetDocumentId := targetId
    allocatedAmount := amount
    paymentBaseAmount := fx.1
    targetBaseAmount := fx.2.1
    exchangeDifference := fx.2.2
    paymentBalance := outstanding payment - amount
    targetOutstanding := outstanding target - amount
    idempotentReplay := false }

/-- `allocate_payment`, run at once. -/
def allocatePayment (env : Env) (db : Db) (paymentId : ℕ) (p : AllocationPayload) (key : Option String) :
    Result (Db × AllocationResult) := do
  RecordSchema.validate (allocationWriteSchema p)
  match allocationOfKey db key with
  | some existing => return (db, replayResult db existing)
  | none =>
    let amount := p.amount.get?.getD 0
    let payment ← require (db.documents.get? paymentId) (.notFound "Payment document not found.")
    let targetId ← require p.targetDocumentId.get? (.invalid "Target document is required." [])
    let target ← require (db.documents.get? targetId) (.notFound "Target document not found.")
    checkAllocation payment target amount
    checkBalance payment target (paidOut db.allocations.values paymentId) amount
    let db' ← writeAllocation env db paymentId targetId payment target amount key
    return (db', allocationResult db paymentId targetId payment target amount)

/-! ## Unwinding -/

def FinancialDocumentAllocation.touches (documentId : ℕ) (a : FinancialDocumentAllocation) : Bool :=
  a.paymentDocumentId == documentId || a.targetDocumentId == documentId

/-- The document on the other side. -/
def FinancialDocumentAllocation.otherSide (documentId : ℕ) (a : FinancialDocumentAllocation) : ℕ :=
  if a.paymentDocumentId = documentId then a.targetDocumentId else a.paymentDocumentId

/-- The allocations of a document, with their ids. -/
def allocationsOf (db : Db) (documentId : ℕ) : List (ℕ × FinancialDocumentAllocation) :=
  db.allocations.rows.filter fun r => r.2.touches documentId

/-- The counterparties in the order the loop over the allocations meets them. -/
def counterparties (documentId : ℕ) (allocations : List (ℕ × FinancialDocumentAllocation)) : List ℕ :=
  (allocations.map fun r => r.2.otherSide documentId).eraseDups

/-- The paid amount of a counterparty, read without a lock. -/
def readPaid (db : Db) (other : ℕ) : Option (ℕ × Money) := (db.documents.get? other).map fun d => (other, d.paidAmount)

def readCounterparties (db : Db) (documentId : ℕ) (allocations : List (ℕ × FinancialDocumentAllocation)) :
    List (ℕ × Money) :=
  (counterparties documentId allocations).filterMap (readPaid db)

/-- One counterparty after the loop over the allocations: each one it shares with the document lowers
its paid amount, not below zero. -/
def unwoundPaid (documentId : ℕ) (allocations : List (ℕ × FinancialDocumentAllocation)) (other : ℕ) (paid : ℚ) : ℚ :=
  allocations.foldl
    (fun paid r => if r.2.otherSide documentId = other then max 0 (paid - r.2.allocatedAmount.val) else paid) paid

/-- The values written to the counterparties, from the values read. -/
def unwindWrites (documentId : ℕ) (allocations : List (ℕ × FinancialDocumentAllocation)) :
    List (ℕ × Money) → Result (List (ℕ × Money))
  | [] => .ok []
  | (other, paid) :: rest => do
    let paid ← storeMoney (unwoundPaid documentId allocations other paid.val)
    let writes ← unwindWrites documentId allocations rest
    return (other, paid) :: writes

def writePaid (documents : Table Document) (writes : List (ℕ × Money)) : Table Document :=
  writes.foldl (fun t w => t.modify w.1 (setPaid w.2)) documents

/-- The flush of the unwinding: the counterparties' paid amounts, the deleted allocations, and the
document itself, reversed and unpaid. -/
def writeUnwinding (db : Db) (documentId : ℕ) (allocations : List (ℕ × FinancialDocumentAllocation))
    (writes : List (ℕ × Money)) : Db :=
  { db with
    documents := (writePaid db.documents writes).modify documentId fun d =>
      { d with paidAmount := 0, status := .reversed }
    allocations := db.allocations.erase fun id _ => allocations.any fun r => r.1 == id }

end LcsSystem
