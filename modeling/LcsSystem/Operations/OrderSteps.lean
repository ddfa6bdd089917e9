import LcsSystem.Core.NormalForms
import LcsSystem.MasterData.GenericRecords
import LcsSystem.Lib.Listing

/-!
# Movements and milestones of a Service Order

`save_movement`, `delete_movements`, `save_milestone`, `delete_milestones` and what lists them
(`src/backend/app/modules/operations/service.py:1513-1822`), with the schemas of `modules/operations/schemas.py:74-112`.
A movement is a leg of the transport, a milestone a named point of it.

| here          | there                                                                             |
|---------------|-----------------------------------------------------------------------------------|
| `StepDb`      | `service_orders`, `service_order_movements` and `service_order_milestones`          |
| `Directory`   | `resolve_reference_id` of a transport type, and the keys that the master data has   |
| `value`       | `data.get(key)`                                                                   |

Times of rows, the places of old movements and the keys of `data` other than `notes` are left out.
-/

namespace LcsSystem.OrderSteps
open Relational Checks Schemas

structure StepOrder where
  serviceOrderNo : String
  status : String

structure ServiceOrderMovement where
  serviceOrderId : ℕ
  sequenceNo : ℤ
  transportTypeId : Option ℤ
  transportAssetId : Option ℤ
  plannedDeparture : Option DateTime
  actualDeparture : Option DateTime
  plannedArrival : Option DateTime
  actualArrival : Option DateTime
  status : String
  notes : PyValue

structure ServiceOrderMilestone where
  serviceOrderId : ℕ
  milestoneCode : String
  milestoneName : String
  sequenceNo : ℤ
  plannedAt : Option DateTime
  actualAt : Option DateTime
  status : String
  notes : PyValue

structure StepDb where
  orders : Table StepOrder
  movements : Table ServiceOrderMovement
  milestones : Table ServiceOrderMilestone

structure Directory where
  readers : Readers
  /-- `str` of a value that is no text. -/
  printed : PyValue → String
  /-- `resolve_reference_id(session, "transport_type", value=…)`. -/
  transportType : PyValue → Result (Option ℤ)
  hasTransportType : ℤ → Bool
  hasTransportAsset : ℤ → Bool

/-! ## Schemas -/

def movementStatuses : List String := ["PLANNED", "IN_TRANSIT", "ARRIVED", "COMPLETED", "CANCELLED"]

def milestoneStatuses : List String := ["PENDING", "IN_PROGRESS", "COMPLETED", "SKIPPED"]

/-- The read-only keys of both. -/
def stepReadonly : List String := ["id", "serviceOrderId", "createdAt", "updatedAt"]

def sequenceSpec : FieldSpec := { key := "sequenceNo", kind := .integer, minimum := some ⟨1, "1"⟩, aliases := ["sequence_no"] }

/-- `MOVEMENT_WRITE_SCHEMA`. -/
def movementWriteSchema : RecordSchema where
  fields := [sequenceSpec,
    { key := "transportTypeId", kind := .reference, aliases := ["transport_type_id"] },
    { key := "transportType", kind := .reference, maxLength := some 255 },
    { key := "transportAssetId", kind := .reference, aliases := ["transport_asset_id"] },
    { key := "plannedDeparture", kind := .datetime, aliases := ["planned_departure"] },
    { key := "actualDeparture", kind := .datetime, aliases := ["actual_departure"] },
    { key := "plannedArrival", kind := .datetime, aliases := ["planned_arrival"] },
    { key := "actualArrival", kind := .datetime, aliases := ["actual_arrival"] },
    { key := "status", maxLength := some 32 },
    { key := "notes", maxLength := some 5000 }]
  crossField := []
  readonly := stepReadonly
  rejectUnknown := true

def milestoneCodeSpec : FieldSpec where
  key := "milestoneCode"
  required := true
  minLength := some 1
  maxLength := some 64
  aliases := ["milestone_code"]

/-- `MILESTONE_WRITE_SCHEMA`. -/
def milestoneWriteSchema : RecordSchema where
  fields := [milestoneCodeSpec,
    { key := "milestoneName", maxLength := some 255, aliases := ["milestone_name"] },
    sequenceSpec,
    { key := "plannedAt", kind := .datetime, aliases := ["planned_at"] },
    { key := "actualAt", kind := .datetime, aliases := ["actual_at"] },
    { key := "status", maxLength := some 20 },
    { key := "notes", maxLength := some 5000 }]
  crossField := []
  readonly := stepReadonly
  rejectUnknown := true

/-! ## Values of a body -/

/-- `data.get(key)`. -/
def value (data : Payload) (key : String) : PyValue := (data.lookup key).getD .none

/-- `int(text)`: a sign, and digits between which single underscores may stand. -/
def intOfText (text : String) : Option ℤ :=
  let cs := (LcsSystem.strip text).toList
  let parts := (cs.dropWhile fun c => c == '+' || c == '-').splitOn '_'
  let sign := cs.takeWhile fun c => c == '+' || c == '-'
  if parts.contains [] ∨ 2 ≤ sign.length ∨ maxStrDigits < parts.flatten.length then none
  else (digits? (String.ofList parts.flatten)).map fun n => if sign = ['-'] then -n else n

/-- `_int_or_none`. -/
def intOrNone : PyValue → Option ℤ
  | .bool b => some (if b then 1 else 0)
  | .int n => some n
  | .float q _ | .decimal q => some (if q < 0 then -⌊-q⌋ else ⌊q⌋)
  | .text s => if s = "" then none else intOfText s
  | _ => none

/-- `_positive_int` of a value that the schema has passed. -/
def positiveInt : PyValue → Option ℤ
  | .int n => some n
  | _ => none

/-- `_as_utc` of a value that the schema has passed. -/
def asUtc : PyValue → Option DateTime
  | .datetime t => some { t with offset := some (t.offset.getD 0) }
  | _ => none

/-- A point in time that a body sends, else the stored one. -/
def sentTime (data : Payload) (key : String) (stored : Option DateTime) : Option DateTime :=
  match data.lookup key with
  | some sent => asUtc sent
  | none => stored

def sentNotes (data : Payload) (stored : PyValue) : PyValue := (data.lookup "notes").getD stored

/-- `.strip().upper()` with underscores for what `spaces` has. -/
def underscored (spaces : List Char) (text : String) : String :=
  String.ofList ((upper (LcsSystem.strip text)).toList.map fun c => if spaces.contains c then '_' else c)

/-- `_normalize_movement_status` and `_normalize_milestone_status`, of a value that the schema has passed. -/
def normalizeStatus (statuses : List String) (default : String) : PyValue → String
  | .text s => if underscored [' ', '-'] s ∈ statuses then underscored [' ', '-'] s else default
  | _ => default

/-! ## The order and its steps -/

/-- `resolve_order`. -/
def resolveOrder (db : StepDb) (identifier : String) : Result (ℕ × StepOrder) :=
  require (((digits? identifier).bind fun id => (db.orders.get? id).map fun order => (id, order)).or
    (db.orders.rows.find? fun row => row.2.serviceOrderNo == identifier)) (.notFound "Service order not found.")

/-- The row under an id that a body names, if it is one of the order's. -/
def ownRow {α : Type} (t : Table α) (owner : α → ℕ) (orderId : ℕ) (id : ℤ) : Option (ℕ × α) :=
  if id < 0 then none else ((t.get? id.toNat).filter fun row => owner row == orderId).map fun row => (id.toNat, row)

/-- The largest value of the integer columns. -/
def maxInteger : ℤ := 2147483647

/-! ## Movements -/

def movementsOf (db : StepDb) (orderId : ℕ) : List (ℕ × ServiceOrderMovement) :=
  db.movements.select fun row => row.serviceOrderId == orderId

/-- The `clash` with another movement than `self`. -/
def sequenceTaken (db : StepDb) (orderId : ℕ) (self : Option ℕ) (n : ℤ) : Bool :=
  (movementsOf db orderId).any fun row => row.2.sequenceNo == n && self != some row.1

def duplicateSequence (n : ℤ) : Error :=
  .conflict "DUPLICATE_SEQUENCE" ("Movement sequence " ++ toString n ++ " already exists on this service order.")
    [("sequenceNo", "Already in use")]

/-- The highest number of a leg, 0 where there is none. -/
def highestSequence (db : StepDb) (orderId : ℕ) : ℤ := ((movementsOf db orderId).map fun row => row.2.sequenceNo).max?.getD 0

/-- The number of a new leg. -/
def newSequence (db : StepDb) (orderId : ℕ) (data : Payload) : Result ℤ := do
  let n := (positiveInt (value data "sequenceNo")).getD (highestSequence db orderId + 1)
  check (0 < n) (.invalid "Sequence must be a positive number." [("sequenceNo", "Enter 1 or more.")])
  check (sequenceTaken db orderId none n = false) (duplicateSequence n)
  return n

/-- The number of a leg after an update. -/
def renumbered (db : StepDb) (id : ℕ) (movement : ServiceOrderMovement) (data : Payload) : Result ℤ := do
  let n := (positiveInt (value data "sequenceNo")).getD movement.sequenceNo
  check (n = movement.sequenceNo ∨ sequenceTaken db movement.serviceOrderId (some id) n = false) (duplicateSequence n)
  return n

/-- `transport_type_id`. -/
def sentTransportType (directory : Directory) (data : Payload) : Result (Option ℤ) :=
  match intOrNone (value data "transportTypeId") with
  | some id => .ok (some id)
  | none =>
    if GenericRecords.truthy (value data "transportType") then directory.transportType (value data "transportType")
    else .ok none

/-- The columns that are written on a new leg and on a stored one. -/
def movementColumns (directory : Directory) (data : Payload) (movement : ServiceOrderMovement) :
    Result ServiceOrderMovement := do
  let transportTypeId ← sentTransportType directory data
  return { movement with
    transportTypeId := transportTypeId.or movement.transportTypeId
    transportAssetId :=
      match data.lookup "transportAssetId" with
      | some .none | none => movement.transportAssetId
      | some sent => intOrNone sent
    plannedDeparture := sentTime data "plannedDeparture" movement.plannedDeparture
    actualDeparture := sentTime data "actualDeparture" movement.actualDeparture
    plannedArrival := sentTime data "plannedArrival" movement.plannedArrival
    actualArrival := sentTime data "actualArrival" movement.actualArrival
    status := normalizeStatus movementStatuses (if movement.status = "" then "PLANNED" else movement.status)
      (value data "status")
    notes := sentNotes data movement.notes }

/-- What the database checks when a leg is written. -/
def checkMovement (directory : Directory) (movement : ServiceOrderMovement) : Result PUnit := do
  check (movement.sequenceNo ≤ maxInteger) (.database "integer out of range")
  check (∀ id ∈ movement.transportTypeId, directory.hasTransportType id = true) (.database "violates foreign key constraint")
  check (∀ id ∈ movement.transportAssetId, directory.hasTransportAsset id = true) (.database "violates foreign key constraint")

/-- A new leg, before its columns are written. -/
def newMovement (orderId : ℕ) (sequenceNo : ℤ) : ServiceOrderMovement :=
  ⟨orderId, sequenceNo, none, none, none, none, none, none, "PLANNED", .none⟩

/-- `save_movement`: the tables, and the row that is answered. -/
def saveMovement (directory : Directory) (db : StepDb) (identifier : String) (payload : Payload) :
    Result (StepDb × (ℕ × ServiceOrderMovement)) := do
  let order ← resolveOrder db identifier
  check (order.2.status ≠ "INACTIVE") (.invalidState "Cannot change movements on an inactive service order.")
  let data ← movementWriteSchema.validate directory.readers payload (GenericRecords.truthy (value payload "id"))
  match intOrNone (value data "id") with
  | none => do
    let n ← newSequence db order.1 data
    let movement ← movementColumns directory data (newMovement order.1 n)
    checkMovement directory movement
    return ({ db with movements := db.movements.insert movement }, (db.movements.nextId, movement))
  | some id => do
    let stored ← require (ownRow db.movements ServiceOrderMovement.serviceOrderId order.1 id)
      (.notFound "Movement not found on this service order.")
    let n ← renumbered db stored.1 stored.2 data
    let movement ← movementColumns directory data { stored.2 with sequenceNo := n }
    checkMovement directory movement
    return ({ db with movements := db.movements.modify stored.1 fun _ => movement }, (stored.1, movement))

/-- `delete_movements`: the tables, and how many were deleted. -/
def deleteMovements (db : StepDb) (identifier : String) (ids : List ℕ) : Result (StepDb × ℕ) := do
  let order ← resolveOrder db identifier
  return ({ db with movements := db.movements.erase fun id row => row.serviceOrderId == order.1 && ids.contains id },
    (movementsOf db order.1).countP fun row => ids.contains row.1)

/-- `ORDER BY sequence_no, id`. -/
def sequenceOrder (a b : ℕ × ServiceOrderMovement) : Prop :=
  a.2.sequenceNo < b.2.sequenceNo ∨ a.2.sequenceNo = b.2.sequenceNo ∧ a.1 ≤ b.1

instance decidableSequenceOrder : DecidableRel sequenceOrder := fun _ _ => inferInstanceAs (Decidable (_ ∨ _ ∧ _))

/-- `list_movements`, for the id of an order. -/
def listMovements (db : StepDb) (orderId : ℕ) : List (ℕ × ServiceOrderMovement) :=
  (movementsOf db orderId).insertionSort sequenceOrder

/-! ## Milestones -/

def milestonesOf (db : StepDb) (orderId : ℕ) : List (ℕ × ServiceOrderMilestone) :=
  db.milestones.select fun row => row.serviceOrderId == orderId

/-- `str(data.get(key) or data.get(key') or "")`. -/
def textOf (directory : Directory) (data : Payload) (key key' : String) : String :=
  match [value data key, value data key'].find? GenericRecords.truthy with
  | some (.text s) => s
  | some sent => directory.printed sent
  | none => ""

def milestoneCodeOf (directory : Directory) (data : Payload) : String :=
  underscored [' '] (textOf directory data "milestoneCode" "milestone_code")

def milestoneNameOf (directory : Directory) (data : Payload) : String :=
  LcsSystem.strip (textOf directory data "milestoneName" "milestone_name")

/-- `code.replace("_", " ").title()`. -/
def titleOf (code : String) : String :=
  let step (text : List Char × Bool) (c : Char) : List Char × Bool :=
    let d := if c = '_' then ' ' else c
    (text.1 ++ [if text.2 then d.toLower else d.toUpper], d.isAlpha)
  String.ofList (code.toList.foldl step ([], false)).1

def newMilestone (orderId : ℕ) (code name : String) (data : Payload) : ServiceOrderMilestone where
  serviceOrderId := orderId
  milestoneCode := code
  milestoneName := if name = "" then titleOf code else name
  sequenceNo := (positiveInt (value data "sequenceNo")).getD 1
  plannedAt := sentTime data "plannedAt" none
  actualAt := sentTime data "actualAt" none
  status := normalizeStatus milestoneStatuses "PENDING" (value data "status")
  notes := value data "notes"

/-- The columns of a stored milestone after an update. -/
def milestoneColumns (name : String) (data : Payload) (milestone : ServiceOrderMilestone) : ServiceOrderMilestone :=
  { milestone with
  milestoneName := if name = "" then milestone.milestoneName else name
  sequenceNo := (positiveInt (value data "sequenceNo")).getD milestone.sequenceNo
  plannedAt := sentTime data "plannedAt" milestone.plannedAt
  actualAt := sentTime data "actualAt" milestone.actualAt
  status := normalizeStatus milestoneStatuses milestone.status (value data "status")
  notes := sentNotes data milestone.notes }

/-- What the database checks when a milestone is written. -/
def checkMilestone (milestone : ServiceOrderMilestone) : Result PUnit := do
  check (milestone.sequenceNo ≤ maxInteger) (.database "integer out of range")
  check (milestone.milestoneCode.length ≤ 64) (.database "value too long for type character varying(64)")
  check (milestone.milestoneName.length ≤ 255) (.database "value too long for type character varying(255)")

/-- `save_milestone`. -/
def saveMilestone (directory : Directory) (db : StepDb) (identifier : String) (payload : Payload) :
    Result (StepDb × (ℕ × ServiceOrderMilestone)) := do
  let order ← resolveOrder db identifier
  check (order.2.status ≠ "INACTIVE") (.invalidState "Cannot change milestones on an inactive service order.")
  let data ← milestoneWriteSchema.validate directory.readers payload (GenericRecords.truthy (value payload "id"))
  let code := milestoneCodeOf directory data
  let name := milestoneNameOf directory data
  match intOrNone (value data "id") with
  | none => do
    check (code ≠ "") (.invalid "A milestone code is required." [("milestoneCode", "Required")])
    check (((milestonesOf db order.1).any fun row => row.2.milestoneCode == code) = false) (.conflict "DUPLICATE_MILESTONE"
      ("Milestone '" ++ code ++ "' already exists on this service order.") [("milestoneCode", "Already in use")])
    let milestone := newMilestone order.1 code name data
    checkMilestone milestone
    return ({ db with milestones := db.milestones.insert milestone }, (db.milestones.nextId, milestone))
  | some id => do
    let stored ← require (ownRow db.milestones ServiceOrderMilestone.serviceOrderId order.1 id)
      (.notFound "Milestone not found on this service order.")
    check (code = "" ∨ code = stored.2.milestoneCode) (.conflict "MILESTONE_CODE_IMMUTABLE"
      "A milestone code cannot change once created; add a new milestone instead." [("milestoneCode", "Cannot be changed")])
    let milestone := milestoneColumns name data stored.2
    checkMilestone milestone
    return ({ db with milestones := db.milestones.modify stored.1 fun _ => milestone }, (stored.1, milestone))

/-- `delete_milestones`. -/
def deleteMilestones (db : StepDb) (identifier : String) (ids : List ℕ) : Result (StepDb × ℕ) := do
  let order ← resolveOrder db identifier
  return ({ db with milestones := db.milestones.erase fun id row => row.serviceOrderId == order.1 && ids.contains id },
    (milestonesOf db order.1).countP fun row => ids.contains row.1)

end LcsSystem.OrderSteps
