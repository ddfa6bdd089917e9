import LcsSystem.Finance.AllocationWrites
import LcsSystem.Finance.PostedDocuments
import LcsSystem.Lib.Transition

/-!
# Allocations and reversals side by side

`allocate_payment` and `reverse_document` as transactions that run statement by statement between each
other. A `Txn` is the statement a request runs next, with what its earlier statements have read. A
statement reads the committed database of its moment (READ COMMITTED); the writes of a request and its
`COMMIT` are one step.

Rows are locked by `SELECT … FOR UPDATE` until the transaction ends: both documents of an allocation,
and for a reversal the reversed document and the journal sequence of the year, but not the documents
it shares allocations with. An `UPDATE` waits for the lock of its row, and a value that did not change
is not updated.
-/

namespace LcsSystem
open Relational DecimalArith Checks Transition

/-! ## Requests -/

structure AllocationRequest where
  env : Env
  paymentId : ℕ
  payload : AllocationPayload
  key : Option String

/-- `_decimal(data.get("amount"))`. -/
def AllocationRequest.amount (r : AllocationRequest) : ℚ := r.payload.amount.get?.getD 0

structure ReversalRequest where
  env : Env
  documentId : ℕ
  reason : String

inductive LockedRow
  | document (id : ℕ)
  | journalSequence (year : ℕ)
  deriving DecidableEq

/-- The next statement of a request. -/
inductive Txn
  | findKey (r : AllocationRequest)
  | replay (r : AllocationRequest) (existing : FinancialDocumentAllocation)
  | lockPayment (r : AllocationRequest)
  | lockTarget (r : AllocationRequest) (payment : Document)
  | sumAllocations (r : AllocationRequest) (payment : Document) (targetId : ℕ) (target : Document)
  | storeAllocation (r : AllocationRequest) (payment : Document) (targetId : ℕ) (target : Document)
      (allocatedSoFar : ℚ)
  | lockReversed (r : ReversalRequest)
  | lockSequence (r : ReversalRequest)
  | readAllocations (r : ReversalRequest)
  | unwind (r : ReversalRequest) (allocations : List (ℕ × FinancialDocumentAllocation)) (pending : List ℕ)
      (readSoFar : List (ℕ × Money))

/-- The rows a transaction holds before its next statement. -/
def Txn.locks : Txn → List LockedRow
  | .findKey _ | .replay _ _ | .lockPayment _ | .lockReversed _ => []
  | .lockTarget r _ => [.document r.paymentId]
  | .sumAllocations r _ targetId _ | .storeAllocation r _ targetId _ _ =>
    [.document r.paymentId, .document targetId]
  | .lockSequence r => [.document r.documentId]
  | .readAllocations r | .unwind r _ _ _ => [.document r.documentId, .journalSequence r.env.utcYear]

/-! ## Statements -/

/-- What a request tells its caller: money was moved, or a key was answered again. -/
inductive Event
  | moved (r : AllocationRequest)
  | replayed (r : AllocationRequest) (result : AllocationResult)

inductive Outcome
  | waits
  | continues (t : Txn)
  | refused (e : Error)
  | finishes (db : Db) (event : Option Event)

/-- Refused, or what follows a successful check. -/
def Outcome.ofResult {α : Type} (f : α → Outcome) : Result α → Outcome
  | .ok a => f a
  | .error e => .refused e

/-- The commit of an allocation, on the rows that were read. -/
def AllocationRequest.store (r : AllocationRequest) (db : Db) (payment : Document) (targetId : ℕ) (target : Document)
    (allocatedSoFar : ℚ) : Result Db := do
  checkBalance payment target allocatedSoFar r.amount
  writeAllocation r.env db r.paymentId targetId payment target r.amount r.key

/-- The commit of a reversal: the mirror entry, and the writes of the unwinding. -/
def ReversalRequest.store (r : ReversalRequest) (db : Db) (allocations : List (ℕ × FinancialDocumentAllocation))
    (writes : List (ℕ × Money)) : Result Db := do
  let db' ← writeReversal r.env db r.documentId r.reason
  commit db (writeUnwinding db' r.documentId allocations writes)

/-- The `UPDATE`s of an unwinding: the values that differ from what was read. -/
def changedPaid (readSoFar writes : List (ℕ × Money)) : List (ℕ × Money) :=
  writes.filter fun w => !decide (w ∈ readSoFar)

/-- The next statement on the committed database; `free` are the rows no other transaction holds. -/
def Txn.next (db : Db) (free : LockedRow → Bool) : Txn → Outcome
  | .findKey r => .ofResult
    (fun _ => match allocationOfKey db r.key with
      | some existing => .continues (.replay r existing)
      | none => .continues (.lockPayment r))
    (RecordSchema.validate (allocationWriteSchema r.payload))
  | .replay r existing => .finishes db (some (.replayed r (replayResult db existing)))
  | .lockPayment r =>
    if free (.document r.paymentId) then
      .ofResult (fun payment => .continues (.lockTarget r payment))
        (require (db.documents.get? r.paymentId) (.notFound "Payment document not found."))
    else .waits
  | .lockTarget r payment => .ofResult
    (fun targetId =>
      if free (.document targetId) then
        .ofResult (fun target => .continues (.sumAllocations r payment targetId target)) (do
          let target ← require (db.documents.get? targetId) (.notFound "Target document not found.")
          checkAllocation payment target r.amount
          return target)
      else .waits)
    (require r.payload.targetDocumentId.get? (.invalid "Target document is required." []))
  | .sumAllocations r payment targetId target =>
    .continues (.storeAllocation r payment targetId target (paidOut db.allocations.values r.paymentId))
  | .storeAllocation r payment targetId target allocatedSoFar =>
    .ofResult (fun db' => .finishes db' (some (.moved r))) (r.store db payment targetId target allocatedSoFar)
  | .lockReversed r =>
    if free (.document r.documentId) then
      .ofResult (fun _ => .continues (.lockSequence r)) (do
        let d ← require (db.documents.get? r.documentId) documentNotFound
        checkReversible d)
    else .waits
  | .lockSequence r =>
    if free (.journalSequence r.env.utcYear) then .continues (.readAllocations r) else .waits
  | .readAllocations r =>
    let allocations := allocationsOf db r.documentId
    .continues (.unwind r allocations (counterparties r.documentId allocations) [])
  | .unwind r allocations (other :: pending) readSoFar =>
    .continues (.unwind r allocations pending (readSoFar ++ (readPaid db other).toList))
  | .unwind r allocations [] readSoFar => .ofResult
    (fun writes =>
      if (changedPaid readSoFar writes).all fun w => free (.document w.1) then
        .ofResult (fun db' => .finishes db' none) (r.store db allocations (changedPaid readSoFar writes))
      else .waits)
    (unwindWrites r.documentId allocations readSoFar)

/-! ## The system -/

structure System where
  db : Db
  txns : Table Txn
  log : List Event

/-- No transaction but `id` holds the row. -/
def System.free (s : System) (id : ℕ) (row : LockedRow) : Bool :=
  s.txns.rows.all fun r => r.1 == id || !decide (row ∈ r.2.locks)

/-- A new request, the next statement of a transaction, or the end of one that gives up (a lost
connection, a timeout, the victim of a deadlock). -/
inductive SystemAction
  | allocate (r : AllocationRequest)
  | reverse (r : ReversalRequest)
  | advance (id : ℕ)
  | abandon (id : ℕ)

def System.finish (s : System) (id : ℕ) : System := { s with txns := s.txns.erase fun i _ => i == id }

def System.apply (s : System) (id : ℕ) : Outcome → System
  | .waits => s
  | .continues t => { s with txns := s.txns.modify id fun _ => t }
  | .refused _ => s.finish id
  | .finishes db event => { s.finish id with db := db, log := s.log ++ event.toList }

def systemStep (s : System) : SystemAction → System
  | .allocate r => { s with txns := s.txns.insert (.findKey r) }
  | .reverse r => { s with txns := s.txns.insert (.lockReversed r) }
  | .advance id =>
    match s.txns.get? id with
    | some t => s.apply id (t.next s.db (s.free id))
    | none => s
  | .abandon id => s.finish id

/-- A committed database without open transactions. -/
def System.idle (db : Db) : System := ⟨db, .empty, []⟩

end LcsSystem
