import LcsSystem.Lib.Entries
import LcsSystem.MasterData.References
import LcsSystem.Operations.Charges
import LcsSystem.Operations.ComponentValues

/-!
# Containers of a service order

`add_container`, `delete_containers` and `_container_payload` of `src/backend/app/modules/operations/service.py:633-854`
over `service_order_containers`, with `CONTAINER_WRITE_SCHEMA` (`schemas.py:44-69`).

| here                     | there                                                                      |
|--------------------------|----------------------------------------------------------------------------|
| `ContainerBody`          | a body after its keys were matched with the aliases, each under one spelling |
| `ContainerBody.rest`     | the read-only keys that it carries beside `id`                              |
| `StoredContainer`        | a row; `data` is its JSON copy                                              |
| `ContainerTables`        | the tables; `referenced` is what the payments of an order's `data` name     |

An update works out every column but the status and the type from the body: `updatedPartially_iff` says for which rows
that is no loss.
-/

namespace LcsSystem
open Calendar Relational DecimalArith Checks Entries

abbrev Weight := Numeric 12 3

structure StoredContainer where
  serviceOrderId : ℕ
  containerRequirementId : Option ℕ
  containerTypeId : ℕ
  containerNumber : Option String
  sealSerial : Option String
  status : String
  netWeightKg : Option Weight
  grossWeightKg : Option Weight
  pickupDate : Option Date
  returnDate : Option Date
  data : List (String × Json)

structure ContainerBody where
  id : Field Reference
  containerNumber : Field String
  containerType : Field Reference
  containerTypeId : Field Reference
  containerRequirementId : Field Reference
  sealSerial : Field String
  status : Field String
  netWeightKg : Field ℚ
  grossWeightKg : Field ℚ
  pickupDate : Field Date
  returnDate : Field Date
  description : Field String
  rest : List (String × Json)
  unknown : List String

structure ContainerTables where
  db : Db
  containers : Table StoredContainer
  types : Table ContainerType
  /-- The container types whose status is not ACTIVE. -/
  inactiveTypes : List ℕ
  requirements : List ℕ
  referenced : ℕ → List String

/-! ## The schema -/

/-- A required text of a partial body: it may be missing, not blank. -/
def checkRequiredText (partially : Bool) (spec : TextSpec) (f : Field String) : List FieldErrorItem :=
  match f.text with
  | .absent => if partially then [] else [⟨spec.key, "REQUIRED", "This field is required."⟩]
  | .blank => [⟨spec.key, "REQUIRED", "This field is required."⟩]
  | _ => spec.check f

/-- `CONTAINER_WRITE_SCHEMA`. -/
def containerWriteSchema (partially : Bool) (p : ContainerBody) : List FieldErrorItem :=
  p.unknown.map (fun key => ⟨key, "UNKNOWN_FIELD", "Unknown field: " ++ key ++ "."⟩) ++
  checkRequiredText partially { key := "containerNumber", minLength := some 1, maxLength := some 32 } p.containerNumber ++
  Reference.check "containerType" (some 64) p.containerType ++
  Reference.check "containerTypeId" none p.containerTypeId ++
  Reference.check "containerRequirementId" none p.containerRequirementId ++
  TextSpec.check { key := "sealSerial", maxLength := some 64 } p.sealSerial ++
  TextSpec.check { key := "status", maxLength := some 32 } p.status ++
  DecimalSpec.check { key := "netWeightKg", minimum := some zeroBound, decimalPlaces := some 3 } p.netWeightKg ++
  DecimalSpec.check { key := "grossWeightKg", minimum := some zeroBound, decimalPlaces := some 3 } p.grossWeightKg ++
  checkDate "pickupDate" p.pickupDate ++
  checkDate "returnDate" p.returnDate ++
  TextSpec.check { key := "description", maxLength := some 2000 } p.description

/-! ## Reading a body -/

/-- A column of the JSON copy: what `jsonable` makes of a key of the validated body. -/
def Field.entry {α : Type} (key : String) (toJson : α → Json) : Field α → List (String × Json)
  | .absent => []
  | .value a => [(key, toJson a)]
  | _ => [(key, .null)]

def Reference.toJson : Reference → Json
  | .id n => .num n
  | .text s => .str s

/-- `d.isoformat()`. -/
def isoformat (d : Date) : String :=
  String.ofList (padded 4 d.year ++ '-' :: padded 2 d.month ++ '-' :: padded 2 d.day)

/-- A text of `_container_input` or `None`. -/
def textOrNull : Option String → Json
  | some s => .str s
  | none => .null

namespace ContainerBody

/-- `str(data.get("containerNumber") or "").strip().upper()`. -/
def number (p : ContainerBody) : Option String := p.containerNumber.text.get?.map upper

def net (p : ContainerBody) : ℚ := p.netWeightKg.get?.getD 0

def gross (p : ContainerBody) : ℚ := p.grossWeightKg.get?.getD 0

/-- `{k: v for k, v in data.items() if k not in {"id"}}`. -/
def entries (p : ContainerBody) : List (String × Json) :=
  p.containerNumber.text.entry "containerNumber" .str ++
  p.containerType.entry "containerType" Reference.toJson ++
  p.containerTypeId.entry "containerTypeId" Reference.toJson ++
  p.containerRequirementId.entry "containerRequirementId" Reference.toJson ++
  p.sealSerial.text.entry "sealSerial" .str ++
  p.status.text.entry "status" .str ++
  p.netWeightKg.entry "netWeightKg" .num ++
  p.grossWeightKg.entry "grossWeightKg" .num ++
  p.pickupDate.entry "pickupDate" (fun d => .str (isoformat d)) ++
  p.returnDate.entry "returnDate" (fun d => .str (isoformat d)) ++
  p.description.text.entry "description" .str ++
  p.rest

end ContainerBody

def isNumberChar (c : Char) : Bool := c.isAlphanum || c == ' ' || c == '-' || c == '_'

/-- The errors of `_container_input`, in the order of its checks. -/
def containerErrors (p : ContainerBody) (updates : Bool) : List (String × String) :=
  (match p.number with
    | none => if updates then [] else [("containerNumber", "This field is required.")]
    | some number =>
      if 32 < number.length then [("containerNumber", "Use at most 32 characters.")]
      else if number.toList.all isNumberChar = false then [("containerNumber", "Use letters, digits, spaces, '-' or '_'.")]
      else []) ++
  (if p.net < 0 then [("netWeightKg", "Cannot be negative.")] else []) ++
  (if p.net ≠ 0 ∧ p.gross ≠ 0 ∧ p.gross < p.net then [("grossWeightKg", "Cannot be less than the net weight.")]
    else if p.gross < 0 then [("grossWeightKg", "Cannot be negative.")] else []) ++
  (if p.pickupDate.given = true ∧ p.pickupDate.get? = none then [("pickupDate", "Enter a valid date.")] else []) ++
  (if p.returnDate.given = true ∧ p.returnDate.get? = none then [("returnDate", "Enter a valid date.")]
    else if ∃ pickup ∈ p.pickupDate.get?, ∃ back ∈ p.returnDate.get?, back < pickup then
      [("returnDate", "Cannot be before the pickup date.")]
    else [])

/-! ## The container type -/

/-- The type of the body, of the stored row, or of the name that the body gives. -/
def typeOfContainer (types : Table ContainerType) (existing : Option StoredContainer) (p : ContainerBody) :
    Result (Table ContainerType × ℕ) :=
  match p.containerTypeId.reference? with
  | some reference => do
    let id ← require reference.number (.database "invalid literal for int()")
    return (types, id)
  | none =>
    match existing with
    | some row => .ok (types, row.containerTypeId)
    | none => do
      let (types, id) := resolveOrCreateContainerType types p.containerType.reference?
      let id ← require id (.invalid "Container type is required." [("containerType", "Required")])
      return (types, id)

def checkContainerType (types : Table ContainerType) (inactiveTypes : List ℕ) (id : ℕ) : Result PUnit := do
  check ((types.get? id).isSome = true)
    (.invalid "Container type is required." [("containerType", "Choose a container type.")])
  check (id ∉ inactiveTypes)
    (.invalid "That container type is inactive." [("containerType", "Choose an active container type.")])

/-! ## add_container -/

/-- `weight if weight else None`, in its column. -/
def storeWeight (q : ℚ) : Result (Option Weight) := if q = 0 then .ok none else some <$> store 12 3 q

/-- The row that an update names; it must be one of the order. -/
def existingContainer (containers : Table StoredContainer) (orderId : ℕ) (p : ContainerBody) :
    Result (Option (ℕ × StoredContainer)) :=
  match p.id.get?.bind Reference.number with
  | none => .ok none
  | some id => do
    let row ← require ((containers.get? id).filter fun row => row.serviceOrderId = orderId) (.notFound "Container not found.")
    return some (id, row)

/-- The first row with this number, in any case. -/
def numberClash (containers : Table StoredContainer) (number : String) : Option ℕ :=
  (containers.rows.find? fun r => r.2.containerNumber.map upper == some number).map Prod.fst

def checkNumberFree (containers : Table StoredContainer) (existing : Option ℕ) (number : Option String) : Result PUnit :=
  check (∀ text ∈ number, ∀ clash ∈ numberClash containers text, existing = some clash)
    (.conflict "DUPLICATE_NUMBER" "Container number already exists." [("containerNumber", "Already in use")])

/-- The requirement of the body, and that it exists. -/
def containerRequirement (requirements : List ℕ) (p : ContainerBody) : Result (Option ℕ) := do
  let requirement := p.containerRequirementId.reference?.bind Reference.number
  check (∀ id ∈ requirement, id ∈ requirements) (.database "violates foreign key constraint container_requirement_id")
  return requirement

/-- The row after the assignments of `add_container`. -/
def containerColumns (orderId : ℕ) (existing : Option StoredContainer) (p : ContainerBody) (typeId : ℕ)
    (requirement : Option ℕ) (net gross : Option Weight) : StoredContainer where
  serviceOrderId := (existing.map StoredContainer.serviceOrderId).getD orderId
  containerRequirementId :=
    match existing with
    | some row => if p.containerRequirementId.reference?.isSome = true then requirement else row.containerRequirementId
    | none => requirement
  containerTypeId := typeId
  containerNumber := p.number
  sealSerial := p.sealSerial.text.get?
  status := p.status.text.get?.getD ((existing.map StoredContainer.status).getD "EXPECTED")
  netWeightKg := net
  grossWeightKg := gross
  pickupDate := p.pickupDate.get?
  returnDate := p.returnDate.get?
  data := overlay ((existing.map StoredContainer.data).getD []) p.entries

/-- `bool(data.get("id"))`. -/
def ContainerBody.partially (p : ContainerBody) : Bool :=
  match p.id with
  | .value (.id 0) => false
  | f => f.given

def addContainer (s : ContainerTables) (identifier : String) (p : ContainerBody) : Result (ContainerTables × ℕ) := do
  let (orderId, order) ← require (resolveOrder s.db identifier) orderNotFound
  check (order.inactive = false) (.invalidState "Cannot add containers to an inactive service order.")
  RecordSchema.validate (containerWriteSchema p.partially p)
  let existing ← existingContainer s.containers orderId p
  check (containerErrors p existing.isSome = [])
    (.invalid "Please correct the container details." (containerErrors p existing.isSome))
  checkNumberFree s.containers (existing.map Prod.fst) p.number
  let (types, typeId) ← typeOfContainer s.types (existing.map Prod.snd) p
  checkContainerType types s.inactiveTypes typeId
  let requirement ← containerRequirement s.requirements p
  let net ← storeWeight p.net
  let gross ← storeWeight p.gross
  let row := containerColumns orderId (existing.map Prod.snd) p typeId requirement net gross
  match existing with
  | some (id, _) => return ({ s with containers := s.containers.modify id fun _ => row, types := types }, id)
  | none => return ({ s with containers := s.containers.insert row, types := types }, s.containers.nextId)

/-! ## Reading -/

/-- The keys that `_container_payload` puts over the JSON copy. -/
def columnEntries (id : ℕ) (c : StoredContainer) (typeLabel : Option String) : List (String × Json) :=
  [("id", .str (toString id)),
   ("serviceOrderId", .str (toString c.serviceOrderId)),
   ("containerRequirementId", textOrNull (c.containerRequirementId.map toString)),
   ("containerType", .str (typeLabel.getD (toString c.containerTypeId))),
   ("containerTypeId", .num c.containerTypeId),
   ("containerNumber", .str (c.containerNumber.getD "")),
   ("containerNo", .str (c.containerNumber.getD "")),
   ("pending", .bool (c.containerNumber.all fun number => number == "")),
   ("sealSerial", textOrNull c.sealSerial),
   ("sealNo", textOrNull c.sealSerial),
   ("status", .str c.status),
   ("netWeightKg", (c.netWeightKg.map fun w => Json.num w.val).getD .null),
   ("grossWeightKg", (c.grossWeightKg.map fun w => Json.num w.val).getD .null),
   ("pickupDate", textOrNull (c.pickupDate.map isoformat)),
   ("returnDate", textOrNull (c.returnDate.map isoformat))]

/-- `_container_payload`. -/
def containerPayload (id : ℕ) (c : StoredContainer) (typeLabel : Option String) : List (String × Json) :=
  overlay c.data (columnEntries id c typeLabel)

/-! ## delete_containers -/

/-- A payment of the order names the row. -/
def isReferenced (referenced : List String) (r : ℕ × StoredContainer) : Bool :=
  r.2.containerNumber.any fun number => number != "" && (referenced.contains (toString r.1) || referenced.contains number)

def selectedContainers (s : ContainerTables) (orderId : ℕ) (ids : List ℕ) : List (ℕ × StoredContainer) :=
  s.containers.rows.filter fun r => r.2.serviceOrderId == orderId && ids.contains r.1

/-- The containers that a line of a charge or a document points to. -/
def namedContainers (db : Db) : List ℕ :=
  (db.charges.values.flatMap fun c => c.lines.filterMap fun l => l.serviceOrderContainerId) ++
    db.documents.values.flatMap fun d => d.lines.filterMap fun l => l.serviceOrderContainerId

def deleteContainers (s : ContainerTables) (identifier : String) (ids : List ℕ) : Result (ContainerTables × ℕ) := do
  let (orderId, _) ← require (resolveOrder s.db identifier) orderNotFound
  let rows := selectedContainers s orderId ids
  check (∀ r ∈ rows, isReferenced (s.referenced orderId) r = false)
    (.conflict "CONTAINER_IN_USE" "Remove the linked container payment before deleting this container." [])
  check (∀ r ∈ rows, r.1 ∉ namedContainers s.db)
    (.database "update or delete on table service_order_containers violates foreign key constraint")
  return ({ s with containers := s.containers.erase fun id c => c.serviceOrderId == orderId && ids.contains id },
    rows.length)

end LcsSystem
