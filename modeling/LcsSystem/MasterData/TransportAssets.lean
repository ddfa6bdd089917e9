import LcsSystem.Core.Fx
import LcsSystem.MasterData.DocumentTypes
import LcsSystem.MasterData.PatternSyntax
import LcsSystem.MasterData.References

/-!
# Transport assets and their identity types

The collections `transportAssets` and `transportAssetIdentityTypes` of `src/backend/app/modules/master_data/service.py`:
`create_reference`, `update_reference` and `delete_reference` with their schemas, transforms and checks.

| here                    | there                                                                       |
|-------------------------|-------------------------------------------------------------------------------|
| `Asset`, `IdentityType` | rows of `transport_assets` and `transport_asset_identity_types`                |
| `Directory`             | the transport types and business parties, which these requests only read      |
| `Compile`               | `re.compile` with `fullmatch`, or what the `re.error` says                     |
| `assetTransform`        | `_asset_transform`                                                            |
| `validateAssetRecord`   | `_validate_asset_record`                                                      |
| `validatePattern`       | `_validate_identity_type_pattern`                                             |
| `Asset.serialize`       | `serialize` of an asset, with `_asset_computed`, as far as a body is read     |

A row has an empty `identityType` where it was saved without one. A capacity has at most twelve digits, so it is read back
as it is stored.
-/

namespace LcsSystem.Assets
open Relational Checks DecimalArith Transition

/-! ## Rows and bodies -/

structure PartyName where
  legalName : String
  deleted : Bool
  deriving DecidableEq

structure Directory where
  transportTypes : Table NamedRecord
  parties : Table PartyName

structure IdentityType where
  name : String
  transportTypeId : Option ℕ
  identityLabel : Option String
  identityPlaceholder : Option String
  validationPattern : Option String
  status : String
  deleted : Bool
  deriving DecidableEq

structure Asset where
  assetCode : String
  assetName : Option String
  transportTypeId : ℕ
  identity : String
  identityType : String
  ownerPartyId : Option ℕ
  operatorPartyId : Option ℕ
  capacityValue : Option ℚ
  capacityUnit : Option String
  description : Option String
  status : String
  deriving DecidableEq

structure AssetPayload where
  assetCode : Field String := .absent
  assetName : Field String := .absent
  identity : Field String := .absent
  identityType : Field String := .absent
  capacityValue : Field ℚ := .absent
  capacityUnit : Field String := .absent
  description : Field String := .absent
  status : Field String := .absent
  transportType : Field Reference := .absent
  ownerParty : Field Reference := .absent
  operatorParty : Field Reference := .absent

structure IdentityTypePayload where
  name : Field String := .absent
  identityLabel : Field String := .absent
  identityPlaceholder : Field String := .absent
  validationPattern : Field String := .absent
  status : Field String := .absent
  transportType : Field Reference := .absent

abbrev Compile := String → Except String (String → Bool)

structure Store where
  assets : Table Asset
  identityTypes : Table IdentityType

/-! ## Reading a body -/

def identityTypeAliases : List (String × String) :=
  [("plate", "License Plate"), ("license plate", "License Plate"), ("licence plate", "License Plate"),
    ("imo", "IMO Number"), ("imo number", "IMO Number"), ("flight", "Flight Number"), ("flight number", "Flight Number"),
    ("tail", "Flight Number"), ("registration", "Other"), ("other", "Other")]

def canonicalType (supplied : String) : String := (identityTypeAliases.lookup (lower (strip supplied))).getD supplied

/-- What is done to a text, where there is one. -/
def mapText (f : String → String) : Field String → Field String
  | .value s => .value (f s)
  | field => field

/-- `_asset_transform`. -/
def assetTransform (p : AssetPayload) : AssetPayload :=
  { p with
    assetCode := mapText strip p.assetCode
    assetName := mapText strip p.assetName
    identity := mapText strip p.identity
    identityType := mapText strip (mapText canonicalType p.identityType)
    capacityUnit := mapText strip p.capacityUnit
    description := mapText strip p.description }

/-- `_identity_type_transform`. -/
def identityTypeTransform (p : IdentityTypePayload) : IdentityTypePayload :=
  { p with
    name := mapText strip p.name
    identityLabel := mapText strip p.identityLabel
    identityPlaceholder := mapText strip p.identityPlaceholder
    validationPattern := mapText strip p.validationPattern }

/-- A reference as the schema hands it on. -/
def normalReference : Field Reference → Field Reference
  | .value (.text s) => if strip s = "" then .blank else .value (.text (strip s))
  | field => field

def assetStatuses : List String := ["ACTIVE", "INACTIVE", "MAINTENANCE"]

def assetCodeSpec : TextSpec := { key := "assetCode", maxLength := some 50 }
def assetNameSpec : TextSpec := { key := "assetName", maxLength := some 255 }
def identitySpec : TextSpec := { key := "identity", maxLength := some 128 }
def identityTypeSpec : TextSpec := { key := "identityType", maxLength := some 64 }
def capacityValueSpec : DecimalSpec := { key := "capacityValue", minimum := some ⟨0, "0"⟩, decimalPlaces := some 3 }
def capacityUnitSpec : TextSpec := { key := "capacityUnit", maxLength := some 32 }
def descriptionSpec : TextSpec := { key := "description" }
def statusSpec : TextSpec := { key := "status", maxLength := some 20 }

/-- `_spec_schema` of the assets. -/
def AssetPayload.items (isPartial : Bool) (p : AssetPayload) : List FieldErrorItem :=
  requiredItems isPartial "assetCode" assetCodeSpec.check p.assetCode.text ++
  assetNameSpec.check p.assetName ++
  requiredItems isPartial "identity" identitySpec.check p.identity.text ++
  identityTypeSpec.check p.identityType ++
  capacityValueSpec.check p.capacityValue ++
  capacityUnitSpec.check p.capacityUnit ++
  descriptionSpec.check p.description ++
  statusSpec.checkChoice assetStatuses p.status ++
  requiredItems isPartial "transportType" (Reference.check "transportType" none) (normalReference p.transportType) ++
  Reference.check "ownerParty" none (normalReference p.ownerParty) ++
  Reference.check "operatorParty" none (normalReference p.operatorParty)

/-- What `validate` returns. -/
def AssetPayload.normalized (p : AssetPayload) : AssetPayload :=
  { p with
    assetCode := p.assetCode.text
    assetName := p.assetName.text
    identity := p.identity.text
    identityType := p.identityType.text
    capacityUnit := p.capacityUnit.text
    description := p.description.text
    status := p.status.text
    transportType := normalReference p.transportType
    ownerParty := normalReference p.ownerParty
    operatorParty := normalReference p.operatorParty }

def nameSpec : TextSpec := { key := "name", maxLength := some 64 }
def identityLabelSpec : TextSpec := { key := "identityLabel", maxLength := some 128 }
def identityPlaceholderSpec : TextSpec := { key := "identityPlaceholder", maxLength := some 128 }
def validationPatternSpec : TextSpec := { key := "validationPattern", maxLength := some 255 }

def IdentityTypePayload.items (isPartial : Bool) (p : IdentityTypePayload) : List FieldErrorItem :=
  requiredItems isPartial "name" nameSpec.check p.name.text ++
  identityLabelSpec.check p.identityLabel ++
  identityPlaceholderSpec.check p.identityPlaceholder ++
  validationPatternSpec.check p.validationPattern ++
  statusSpec.checkChoice ["ACTIVE", "INACTIVE"] p.status ++
  Reference.check "transportType" none (normalReference p.transportType)

def IdentityTypePayload.normalized (p : IdentityTypePayload) : IdentityTypePayload :=
  { p with
    name := p.name.text
    identityLabel := p.identityLabel.text
    identityPlaceholder := p.identityPlaceholder.text
    validationPattern := p.validationPattern.text
    status := p.status.text
    transportType := normalReference p.transportType }

/-- `_validate_required`: of each required key whether the body fills it, and the stored value. -/
def validateRequired (keys : List (String × Bool × Option String)) : Result PUnit :=
  let missing := (keys.filter fun e => !e.2.1 && e.2.2.all fun s => strip s = "").map Prod.fst
  check (missing = []) (.invalid "Please complete the required fields." (missing.map (·, "This field is required.")))

def AssetPayload.requiredKeys (stored : Option Asset) (p : AssetPayload) : List (String × Bool × Option String) :=
  [("assetCode", p.assetCode.given, stored.map (·.assetCode)),
    ("transportType", p.transportType.given, stored.map fun row => toString row.transportTypeId),
    ("identity", p.identity.given, stored.map (·.identity))]

def IdentityTypePayload.requiredKeys (stored : Option IdentityType) (p : IdentityTypePayload) :
    List (String × Bool × Option String) := [("name", p.name.given, stored.map (·.name))]

/-! ## apply_input -/

/-- A key that was sent replaces the column. -/
def replaced {α : Type} (field : Field α) (current : Option α) : Option α := if field.sent then field.get? else current

/-- `resolve_reference` of a transport type and of a business party. -/
def Directory.transportType (dir : Directory) (r : Reference) : Option ℕ :=
  r.number <|> findRecord dir.transportTypes r.asText

def Directory.party (dir : Directory) (r : Reference) : Option ℕ :=
  r.number <|> (dir.parties.rows.find? fun e => e.2.legalName == r.asText && !e.2.deleted).map Prod.fst

def applyReference (key label : String) (resolve : Reference → Option ℕ) (current : Option ℕ) :
    Field Reference → Result (Option ℕ)
  | .absent => .ok current
  | .value r => do
    let id ← require (resolve r) (.invalid ("Unknown " ++ label ++ ": '" ++ r.asText ++ "' was not found.")
      [(key, "'" ++ r.asText ++ "' does not match any " ++ label ++ ".")])
    return some id
  | _ => .ok none

def applyAssetInput (dir : Directory) (row : Asset) (p : AssetPayload) : Result Asset := do
  let transportType ← applyReference "transportType" "transport type" dir.transportType (some row.transportTypeId)
    p.transportType
  let owner ← applyReference "ownerParty" "business party" dir.party row.ownerPartyId p.ownerParty
  let operator ← applyReference "operatorParty" "business party" dir.party row.operatorPartyId p.operatorParty
  return {
    assetCode := p.assetCode.get?.getD row.assetCode
    assetName := replaced p.assetName row.assetName
    transportTypeId := transportType.getD row.transportTypeId
    identity := p.identity.get?.getD row.identity
    identityType := (replaced p.identityType (some row.identityType)).getD ""
    ownerPartyId := owner
    operatorPartyId := operator
    capacityValue := replaced p.capacityValue row.capacityValue
    capacityUnit := replaced p.capacityUnit row.capacityUnit
    description := replaced p.description row.description
    status := p.status.get?.getD row.status }

def applyTypeInput (dir : Directory) (row : IdentityType) (p : IdentityTypePayload) : Result IdentityType := do
  let transportType ← applyReference "transportType" "transport type" dir.transportType row.transportTypeId p.transportType
  return { row with
    name := p.name.get?.getD row.name
    identityLabel := replaced p.identityLabel row.identityLabel
    identityPlaceholder := replaced p.identityPlaceholder row.identityPlaceholder
    validationPattern := replaced p.validationPattern row.validationPattern
    status := p.status.get?.getD row.status
    transportTypeId := transportType }

/-! ## _validate_asset_record -/

def IdentityType.fits (t : IdentityType) (transportTypeId : ℕ) : Bool := t.transportTypeId.all (· == transportTypeId)

def liveTypes (types : Table IdentityType) : List IdentityType := types.values.filter fun t => !t.deleted

def archivedTypes (types : Table IdentityType) : List IdentityType := types.values.filter fun t => t.deleted

def liveNamed (types : Table IdentityType) (name : String) : Option IdentityType :=
  (liveTypes types).find? fun t => t.name == name

def archivedNamed (types : Table IdentityType) (name : String) : Option IdentityType :=
  (archivedTypes types).find? fun t => t.name == name

/-- The type of an asset that is saved without one. -/
def firstApplicable (types : Table IdentityType) (transportTypeId : ℕ) : Option IdentityType :=
  (liveTypes types).find? fun t => t.fits transportTypeId

/-- The name that is looked up. -/
def typeName (types : Table IdentityType) (row : Asset) : String :=
  if strip row.identityType = "" then ((firstApplicable types row.transportTypeId).map (·.name)).getD ""
  else strip row.identityType

def unsupportedType (types : Table IdentityType) : Error :=
  let offered := ", ".intercalate (((liveTypes types).map (·.name)).mergeSort fun a b => decide (a ≤ b))
  .invalid "Unsupported identity type." [("identityType",
    if offered = "" then "Add one under Asset Identity Types first." else "Choose one of: " ++ offered ++ ".")]

def checkFits (dir : Directory) (t : IdentityType) (name : String) (row : Asset) : Result PUnit :=
  check (t.fits row.transportTypeId = true) (.invalid "Identity type does not match the transport type."
    [("identityType", "'" ++ name ++ "' is not available for a " ++
      ((dir.transportTypes.get? row.transportTypeId).map (·.name)).getD "this" ++ " asset.")])

/-- The row whose pattern applies. -/
def describingType (dir : Directory) (types : Table IdentityType) (touched : Bool) (name : String) (row : Asset) :
    Result (Option IdentityType) :=
  if touched then do
    let t ← require (liveNamed types name) (unsupportedType types)
    checkFits dir t name row
    return some t
  else
    match liveNamed types name with
    | some t => do
      checkFits dir t name row
      return some t
    | none => .ok (archivedNamed types name)

/-- A malformed pattern is treated like none. -/
def patternAccepts (compile : Compile) (t : IdentityType) (identity : String) : Bool :=
  match t.validationPattern.filter fun pattern => pattern ≠ "" with
  | none => true
  | some pattern =>
    match compile (strip pattern) with
    | .ok fullmatch => fullmatch (strip identity)
    | .error _ => true

/-- The identity that the pattern is applied to, none where it is not. -/
def suppliedIdentity (touched : Bool) (row : Asset) (p : AssetPayload) : Option String :=
  (match p.identity.get? with
    | some identity => some identity
    | none => if touched then some row.identity else none).filter fun identity => strip identity ≠ ""

def checkIdentity (compile : Compile) (described : Option IdentityType) (supplied : Option String) : Result PUnit :=
  let label := (described.map fun t => t.identityLabel.getD t.name).getD ""
  check (∀ t ∈ described, ∀ identity ∈ supplied, patternAccepts compile t identity = true)
    (.invalid ("Enter a valid " ++ label ++ ".") [("identity", "Enter a valid " ++ label ++ ".")])

def Asset.hasUnit (row : Asset) : Bool := row.capacityUnit.any fun unit => strip unit ≠ ""

def checkCapacity (row : Asset) : Result PUnit := do
  check (row.capacityValue.isSome = true → row.hasUnit = true) (.invalid "Capacity and capacity unit go together."
    [("capacityUnit", "A capacity unit needs a capacity value.")])
  check (row.hasUnit = true → row.capacityValue.isSome = true) (.invalid "Capacity and capacity unit go together."
    [("capacityValue", "A capacity value needs a capacity unit.")])

/-- Whether the caller chose another type than the stored one. -/
def isTouched (storedType : Option String) (p : AssetPayload) : Bool :=
  let suppliedType := p.identityType.get?.getD ""
  suppliedType != "" && suppliedType != strip (storedType.getD "")

/-- `_validate_asset_record` of the row with the input applied. -/
def validateAssetRecord (compile : Compile) (dir : Directory) (types : Table IdentityType) (storedType : Option String)
    (row : Asset) (p : AssetPayload) : Result Asset := do
  let touched := isTouched storedType p
  let name := typeName types row
  let row := if strip row.identityType = "" then { row with identityType := name } else row
  let described ← describingType dir types touched name row
  checkIdentity compile described (suppliedIdentity touched row p)
  checkCapacity row
  return row

/-! ## Saves -/

def codeTaken : Error := .invalid "This asset code is already in use." [("assetCode", "This asset code is already in use.")]

def identityTaken : Error := .invalid "This transport type and identity already exist."
  [("identity", "This transport type and identity already exist.")]

/-- What the database says of the row with this key. -/
def flushAsset (dir : Directory) (assets : Table Asset) (id : ℕ) (row : Asset) : Result Asset := do
  let capacity ← row.capacityValue.mapM (store 12 3)
  check (∀ e ∈ assets.rows, e.1 = id ∨ e.2.assetCode ≠ row.assetCode) codeTaken
  check (∀ e ∈ assets.rows, e.1 = id ∨ (e.2.transportTypeId, e.2.identity) ≠ (row.transportTypeId, row.identity))
    identityTaken
  check ((dir.transportTypes.get? row.transportTypeId).isSome = true) identityTaken
  check ((∀ owner ∈ row.ownerPartyId, (dir.parties.get? owner).isSome = true) ∧
      ∀ operator ∈ row.operatorPartyId, (dir.parties.get? operator).isSome = true)
    (.invalid "A record with the same unique value already exists." [])
  return { row with capacityValue := capacity.map Numeric.val }

def newAsset : Asset := ⟨"", none, 0, "", "", none, none, none, none, none, "ACTIVE"⟩

section
variable (compile : Compile) (dir : Directory)

/-- `create_reference("transportAssets", data)`. -/
def createAsset (s : Store) (body : AssetPayload) : Result Store := do
  let data := assetTransform body
  RecordSchema.validate (data.items false)
  let p := data.normalized
  validateRequired (p.requiredKeys none)
  let applied ← applyAssetInput dir newAsset p
  let row ← validateAssetRecord compile dir s.identityTypes none applied p
  let stored ← flushAsset dir s.assets s.assets.nextId row
  return { s with assets := s.assets.insert stored }

/-- `update_reference("transportAssets", id, data)`. -/
def updateAsset (s : Store) (id : ℕ) (body : AssetPayload) : Result Store := do
  let current ← require (s.assets.get? id) (.notFound "Record not found.")
  let data := assetTransform body
  RecordSchema.validate (data.items true)
  let p := data.normalized
  validateRequired (p.requiredKeys (some current))
  let applied ← applyAssetInput dir current p
  let row ← validateAssetRecord compile dir s.identityTypes (some current.identityType) applied p
  check (p.status.sent = true → p.status.given = true) blankColumn
  let stored ← flushAsset dir s.assets id row
  return { s with assets := s.assets.modify id fun _ => stored }

/-! ## Identity types -/

/-- `_validate_identity_type_pattern`. -/
def validatePattern (p : IdentityTypePayload) : Result PUnit :=
  match p.validationPattern.get? with
  | none => .ok ⟨⟩
  | some source => do
    check (source.length ≤ 200) (.invalid "The pattern is too long."
      [("validationPattern", "Keep the pattern under 200 characters.")])
    match compile source with
    | .error what => .error (.invalid "The pattern is not a valid regular expression."
        [("validationPattern", "This is not a valid regular expression: " ++ what ++ ".")])
    | .ok _ =>
      check (Patterns.patternIsRedosRisk source ≠ .ok true) (.invalid "The pattern risks very slow matching."
        [("validationPattern",
          "Avoid nested quantifiers like (x+)+ — the pattern would be re-checked on every asset save.")])

def nameTaken : Error := .invalid "This identity type name is already in use."
  [("name", "This identity type name is already in use.")]

def flushType (types : Table IdentityType) (id : ℕ) (row : IdentityType) : Result PUnit := do
  check (∀ e ∈ types.rows, e.1 = id ∨ e.2.deleted = true ∨ e.2.name ≠ row.name) nameTaken
  check (∀ transportType ∈ row.transportTypeId, (dir.transportTypes.get? transportType).isSome = true) identityTaken

def newIdentityType : IdentityType := ⟨"", none, none, none, none, "ACTIVE", false⟩

/-- `create_reference("transportAssetIdentityTypes", data)`. -/
def createType (s : Store) (body : IdentityTypePayload) : Result Store := do
  let data := identityTypeTransform body
  RecordSchema.validate (data.items false)
  let p := data.normalized
  validateRequired (p.requiredKeys none)
  let row ← applyTypeInput dir newIdentityType p
  validatePattern compile p
  flushType dir s.identityTypes s.identityTypes.nextId row
  return { s with identityTypes := s.identityTypes.insert row }

/-- `update_reference("transportAssetIdentityTypes", id, data)`. -/
def updateType (s : Store) (id : ℕ) (body : IdentityTypePayload) : Result Store := do
  let current ← require ((s.identityTypes.get? id).filter fun t => !t.deleted) (.notFound "Record not found.")
  let data := identityTypeTransform body
  RecordSchema.validate (data.items true)
  let p := data.normalized
  validateRequired (p.requiredKeys (some current))
  let row ← applyTypeInput dir current p
  validatePattern compile p
  check (p.status.sent = true → p.status.given = true) blankColumn
  flushType dir s.identityTypes id row
  return { s with identityTypes := s.identityTypes.modify id fun _ => row }

/-- The rows with this one archived. -/
def archivedBy (types : Table IdentityType) (id : ℕ) : Table IdentityType :=
  types.modify id fun t => { t with deleted := true }

/-- `delete_reference("transportAssetIdentityTypes", [id])`. -/
def archiveType (s : Store) (id : ℕ) : Result Store :=
  match s.identityTypes.get? id with
  | none => .ok s
  | some t => do
    check (upper (strip t.status) ≠ "ACTIVE")
      (.conflict "REFERENCE_ACTIVE" "Active records cannot be deleted. Deactivate the record first." [])
    check (t.deleted = false) (.conflict "ALREADY_ARCHIVED" "The record is already archived." [])
    return { s with identityTypes := archivedBy s.identityTypes id }

/-! ## Requests -/

inductive Action
  | createAsset (body : AssetPayload)
  | updateAsset (id : ℕ) (body : AssetPayload)
  | createType (body : IdentityTypePayload)
  | updateType (id : ℕ) (body : IdentityTypePayload)
  | archiveType (id : ℕ)

def Action.perform (s : Store) : Action → Result Store
  | createAsset body => Assets.createAsset compile dir s body
  | updateAsset id body => Assets.updateAsset compile dir s id body
  | createType body => Assets.createType compile dir s body
  | updateType id body => Assets.updateType compile dir s id body
  | archiveType id => Assets.archiveType s id

def step (s : Store) (a : Action) : Store := orKeep s (a.perform compile dir s)

def Store.empty : Store := ⟨.empty, .empty⟩

end

/-! ## Reading an asset -/

def asField {α : Type} (column : Option α) : Field α := (column.map Field.value).getD .blank

/-- What a form reads of an asset and submits again: references by name. -/
def Asset.serialize (dir : Directory) (row : Asset) : AssetPayload where
  assetCode := .value row.assetCode
  assetName := asField row.assetName
  identity := .value row.identity
  identityType := .value row.identityType
  capacityValue := asField row.capacityValue
  capacityUnit := asField row.capacityUnit
  description := asField row.description
  status := .value row.status
  transportType := asField (((dir.transportTypes.get? row.transportTypeId).map (·.name)).map .text)
  ownerParty := asField (((row.ownerPartyId.bind dir.parties.get?).map (·.legalName)).map .text)
  operatorParty := asField (((row.operatorPartyId.bind dir.parties.get?).map (·.legalName)).map .text)

end LcsSystem.Assets
