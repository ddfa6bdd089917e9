import LcsSystem.Operations.ComponentValues

/-!
# The form of a Service Order

`bootstrap`, `snapshot_tabs` and the payloads of `src/backend/app/modules/operations/component_tabs.py:64-130,264-431`: an
order that is pinned to a version shows the tabs of its snapshot, any other order those of the live configuration.

The number of the order, the labels of references, the times of rows and the copies of their values beside their ids are
left out, so is the summary of the version.
-/

namespace LcsSystem
open Relational Checks

structure ShownAttribute where
  id : ℕ
  code : String
  label : String
  labelKm : Option String
  fieldType : DataType
  inputType : Option String
  referenceType : Option String
  isRequired : Bool
  isVisible : Bool
  defaultValue : Option String
  placeholder : Option String
  width : Option String
  options : List Json
  validationRules : List (String × Json)
  sortOrder : ℤ
  deriving DecidableEq

structure ShownRow where
  id : ℕ
  groupId : ℕ
  rowNo : ℕ
  values : List (String × Json)
  deriving DecidableEq

structure ShownGroup where
  id : ℕ
  tabGroupId : Option ℕ
  code : String
  name : String
  nameKm : Option String
  renderMode : RenderMode
  displayOrder : ℤ
  attributes : List ShownAttribute
  rows : List ShownRow
  layout : Layout
  deriving DecidableEq

structure ShownTab where
  id : ℕ
  code : String
  name : String
  displayOrder : ℤ
  groups : List ShownGroup
  deriving DecidableEq

/-- What `bootstrap` answers. -/
structure ShownForm where
  serviceOrderId : ℕ
  tradeDirectionId : Option ℕ
  tabs : List ShownTab
  references : List (String × List ℤ)
  configVersionId : Option ℕ
  deriving DecidableEq

/-! ## Rows -/

/-- `row_payload`. -/
def rowPayload (row : ℕ × ComponentRow) : ShownRow := ⟨row.1, row.2.groupId, row.2.rowNo, row.2.values⟩

/-- `ORDER BY group_id, row_no, id`. -/
def shownRowOrder (a b : ℕ × ComponentRow) : Prop :=
  a.2.groupId < b.2.groupId ∨ a.2.groupId = b.2.groupId ∧ (a.2.rowNo < b.2.rowNo ∨ a.2.rowNo = b.2.rowNo ∧ a.1 ≤ b.1)

instance : DecidableRel shownRowOrder := fun _ _ => inferInstanceAs (Decidable (_ ∨ _ ∧ _))

/-- `rows_by_group`. -/
def rowsByGroup (db : ConfigDb) (orderId groupId : ℕ) : List ShownRow :=
  (((db.rows.select fun row => row.serviceOrderId == orderId && !row.isArchived).insertionSort shownRowOrder).filter
    fun row => row.2.groupId == groupId).map rowPayload

/-! ## From a snapshot -/

/-- An attribute in `snapshot_tabs`. -/
def AttributeEntry.shown (entry : AttributeEntry) : ShownAttribute where
  id := entry.id
  code := entry.code
  label := entry.label
  labelKm := entry.labelKm
  fieldType := entry.dataType
  inputType := entry.inputType
  referenceType := entry.referenceType
  isRequired := entry.isRequired
  isVisible := entry.isVisible
  defaultValue := entry.defaultValue
  placeholder := entry.placeholder
  width := entry.width
  options := entry.options
  validationRules := entry.validationRules
  sortOrder := entry.displayOrder

/-- A group in `snapshot_tabs`; no columns read as three. -/
def GroupEntry.shown (rows : ℕ → List ShownRow) (entry : GroupEntry) : ShownGroup where
  id := entry.id
  tabGroupId := entry.tabGroupId
  code := entry.code
  name := entry.name
  nameKm := entry.nameKm
  renderMode := entry.renderMode
  displayOrder := entry.displayOrder
  attributes := (entry.attributes.filter AttributeEntry.isVisible).map AttributeEntry.shown
  rows := rows entry.id
  layout := { entry.layout with formColumns := if entry.layout.formColumns = 0 then 3 else entry.layout.formColumns }

def TabEntry.shown (rows : ℕ → List ShownRow) (entry : TabEntry) : ShownTab where
  id := entry.id
  code := entry.code
  name := entry.name
  displayOrder := entry.displayOrder
  groups := entry.groups.map (GroupEntry.shown rows)

/-- `snapshot_tabs`, for a direction. -/
def snapshotTabs (snapshot : Snapshot) (directionId : ℕ) (rows : ℕ → List ShownRow) : List ShownTab :=
  (snapshot.tabs.filter fun tab => tab.tradeDirectionId == some directionId).map (TabEntry.shown rows)

/-! ## From the live configuration -/

/-- `attribute_payload`. -/
def attributePayload (member : ComponentGroupAttribute × (ℕ × ComponentAttribute)) : ShownAttribute where
  id := member.2.1
  code := member.2.2.code
  label := member.2.2.label
  labelKm := member.2.2.labelKm
  fieldType := member.2.2.dataType
  inputType := member.2.2.inputType
  referenceType := member.2.2.referenceType
  isRequired := member.1.isRequired.getD member.2.2.isRequired
  isVisible := member.1.isVisible
  defaultValue := member.2.2.defaultValue
  placeholder := member.2.2.placeholder
  width := (member.1.width.filter (· ≠ "")).or member.2.2.width
  options := member.2.2.options
  validationRules := member.2.2.validationRules
  sortOrder := member.1.displayOrder

/-- `group_payload`. -/
def groupPayload (rows : ℕ → List ShownRow) (attributes : List ShownAttribute)
    (link : (ℕ × ComponentTabGroup) × ComponentGroup) : ShownGroup where
  id := link.1.2.groupId
  tabGroupId := some link.1.1
  code := link.2.code
  name := link.2.name
  nameKm := link.2.nameKm
  renderMode := link.2.renderMode
  displayOrder := link.1.2.displayOrder
  attributes := attributes
  rows := rows link.1.2.groupId
  layout := resolveLayout link.1.2 link.2

def liveGroups (config : Configuration) (tabId : ℕ) (rows : ℕ → List ShownRow) : List ShownGroup :=
  (activeTabGroups config fun link => link.tabId == tabId).map fun link =>
    groupPayload rows ((groupAttributes config link.1.2.groupId).map attributePayload) link

/-- The live tabs of a direction. -/
def directionTabs (config : Configuration) (directionId : ℕ) : List (ℕ × ComponentTab) :=
  (config.tabs.select fun tab => tab.tradeDirectionId == some directionId && tab.isLive).insertionSort
    (displayOrder ComponentTab.displayOrder)

/-- The tabs of an order that is pinned to no version. -/
def liveFormTabs (config : Configuration) (directionId : ℕ) (rows : ℕ → List ShownRow) : List ShownTab :=
  (directionTabs config directionId).map fun tab =>
    ⟨tab.1, tab.2.code, tab.2.name, tab.2.displayOrder, liveGroups config tab.1 rows⟩

/-! ## The form -/

/-- `sorted(reference_types)`. -/
def referenceTypesOf (tabs : List ShownTab) : List String :=
  let types := ((tabs.flatMap ShownTab.groups).flatMap ShownGroup.attributes).filterMap fun field =>
    if field.fieldType = .reference then field.referenceType.filter (· ≠ "") else none
  types.dedup.insertionSort (· ≤ ·)

/-- `version_for_order`. -/
def versionForOrder (db : ConfigDb) (order : FormOrder) : Option ConfigurationVersion :=
  order.configurationVersionId.bind db.versions.get?

/-- `direction_id or order.trade_direction_id`. -/
def selectedDirection (order : FormOrder) (directionId : Option ℕ) : ℕ :=
  (directionId.filter (· ≠ 0)).getD order.tradeDirectionId

/-- The tabs of an order: those of the snapshot that it is pinned to, unless it has none. -/
def formTabs (db : ConfigDb) (orderId : ℕ) (order : FormOrder) (directionId : Option ℕ) : List ShownTab :=
  let selected := selectedDirection order directionId
  let snapshot := ((versionForOrder db order).map ConfigurationVersion.configSnapshot).getD ⟨[]⟩
  if snapshot.tabs ≠ [] then snapshotTabs snapshot selected (rowsByGroup db orderId)
  else if selected = 0 then [] else liveFormTabs db.toConfiguration selected (rowsByGroup db orderId)

def bootstrap (db : ConfigDb) (orderId : ℕ) (directionId : Option ℕ) : Result ShownForm := do
  let order ← require (db.orders.get? orderId) (.notFound "Service order not found.")
  let tabs := formTabs db orderId order directionId
  let types := referenceTypesOf tabs
  let selected := selectedDirection order directionId
  return {
    serviceOrderId := orderId
    tradeDirectionId := if selected = 0 then none else some selected
    tabs := tabs
    references := (if types = [] then referenceTypes else types).map fun type => (type, db.referenceIds type orderId)
    configVersionId := order.configurationVersionId.filter (· ≠ 0) }

end LcsSystem
