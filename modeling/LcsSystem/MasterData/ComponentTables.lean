import LcsSystem.Core.Validation
import LcsSystem.Lib.Json
import LcsSystem.Lib.Selection

/-!
# Tables of the component configuration

`src/backend/app/modules/master_data/models.py`: a Service Order shows tabs, a tab shows groups by way of
assignments, a group shows attributes by way of memberships. The saved values of an order are rows of a group.
A configuration version keeps a snapshot of all that.

Descriptions, time stamps and the catalogue order of attributes and groups are left out.
-/

namespace LcsSystem
open Relational

/-! ## Enumerations -/

/-- `DATA_TYPES`. -/
inductive DataType
  | text | textarea | number | integer | decimal | money | currency | date | datetime | select | multiSelect | checkbox
  | boolean | reference
  deriving DecidableEq

/-- `RENDER_MODES`. -/
inductive RenderMode
  | table | form
  deriving DecidableEq

/-- `LAYOUT_DISPLAY_MODES`. -/
inductive DisplayMode
  | formOnly | tableOnly | formAndTable
  deriving DecidableEq

/-- `DATA_CARDINALITIES`. -/
inductive DataCardinality
  | single | multiple
  deriving DecidableEq

/-- `REFERENCE_TYPES`. -/
def referenceTypes : List String :=
  ["business_party", "transport_asset", "transport_type", "container", "fee_type", "user"]

/-! ## Rows -/

structure ComponentAttribute where
  code : String
  label : String
  labelKm : Option String
  dataType : DataType
  inputType : Option String
  referenceType : Option String
  isRequired : Bool
  defaultValue : Option String
  placeholder : Option String
  width : Option String
  options : List Json
  validationRules : List (String × Json)
  status : String
  deriving DecidableEq

structure ComponentGroup where
  code : String
  name : String
  nameKm : Option String
  renderMode : RenderMode
  isActive : Bool
  isArchived : Bool
  deriving DecidableEq

/-- Membership of an attribute in a group, with overrides. -/
structure ComponentGroupAttribute where
  groupId : ℕ
  attributeId : ℕ
  isRequired : Option Bool
  width : Option String
  displayOrder : ℤ
  isVisible : Bool
  status : String
  deriving DecidableEq

structure ComponentTab where
  code : String
  name : String
  tradeDirectionId : Option ℕ
  displayOrder : ℤ
  isActive : Bool
  isArchived : Bool
  configVersionId : Option ℕ
  deriving DecidableEq

/-- Assignment of a group to a tab; what its layout leaves open is inherited from the group. -/
structure ComponentTabGroup where
  tabId : ℕ
  groupId : ℕ
  displayOrder : ℤ
  displayMode : Option DisplayMode
  dataCardinality : Option DataCardinality
  formColumns : Option ℤ
  showGroupTitle : Option Bool
  editable : Option Bool
  collapsible : Option Bool
  defaultExpanded : Option Bool
  status : String
  deriving DecidableEq

/-- A `service_order_component_rows` row: values by the code of their attribute. -/
structure ComponentRow where
  serviceOrderId : ℕ
  groupId : ℕ
  rowNo : ℕ
  isArchived : Bool
  values : List (String × Json)
  configVersionId : Option ℕ
  deriving DecidableEq

/-! ## Layouts -/

structure Layout where
  displayMode : DisplayMode
  dataCardinality : DataCardinality
  formColumns : ℤ
  showGroupTitle : Bool
  editable : Bool
  collapsible : Bool
  defaultExpanded : Bool
  deriving DecidableEq

/-- `_legacy_layout`: what a render mode meant before layouts were set per assignment. -/
def RenderMode.legacyLayout (mode : RenderMode) : Layout where
  displayMode := match mode with
    | .table => .tableOnly
    | .form => .formOnly
  dataCardinality := match mode with
    | .table => .multiple
    | .form => .single
  formColumns := 3
  showGroupTitle := true
  editable := true
  collapsible := false
  defaultExpanded := true

/-- `resolve_layout`: the columns that are set, over the legacy layout of the group. -/
def resolveLayout (link : ComponentTabGroup) (group : ComponentGroup) : Layout where
  displayMode := link.displayMode.getD group.renderMode.legacyLayout.displayMode
  dataCardinality := link.dataCardinality.getD group.renderMode.legacyLayout.dataCardinality
  formColumns := link.formColumns.getD group.renderMode.legacyLayout.formColumns
  showGroupTitle := link.showGroupTitle.getD group.renderMode.legacyLayout.showGroupTitle
  editable := link.editable.getD group.renderMode.legacyLayout.editable
  collapsible := link.collapsible.getD group.renderMode.legacyLayout.collapsible
  defaultExpanded := link.defaultExpanded.getD group.renderMode.legacyLayout.defaultExpanded

/-- Only one record can be shown. -/
def Layout.isSingle (layout : Layout) : Bool := layout.dataCardinality = .single || layout.displayMode = .formOnly

/-! ## Selections -/

/-- `ORDER BY display_order, id`. -/
def displayOrder {α : Type} (order : α → ℤ) (a b : ℕ × α) : Prop :=
  order a.2 < order b.2 ∨ order a.2 = order b.2 ∧ a.1 ≤ b.1

instance {α : Type} (order : α → ℤ) : DecidableRel (displayOrder order) := fun _ _ => inferInstanceAs (Decidable (_ ∨ _ ∧ _))

/-- The configuration tables. -/
structure Configuration where
  tabs : Table ComponentTab
  tabGroups : Table ComponentTabGroup
  groups : Table ComponentGroup
  memberships : Table ComponentGroupAttribute
  attributes : Table ComponentAttribute

def ComponentTab.isLive (tab : ComponentTab) : Bool := tab.isActive && !tab.isArchived

def ComponentGroup.isLive (group : ComponentGroup) : Bool := group.isActive && !group.isArchived

/-- `SELECT … JOIN component_groups`: the active assignments of a live group that are `wanted`. -/
def activeTabGroups (config : Configuration) (wanted : ComponentTabGroup → Bool) :
    List ((ℕ × ComponentTabGroup) × ComponentGroup) :=
  ((config.tabGroups.select fun link => wanted link && link.status == "ACTIVE").insertionSort
    (displayOrder ComponentTabGroup.displayOrder)).filterMap fun link =>
      ((config.groups.get? link.2.groupId).filter ComponentGroup.isLive).map fun group => (link, group)

/-- `SELECT … JOIN component_attributes`: the active memberships of an active attribute that are `wanted`. -/
def activeMemberships (config : Configuration) (wanted : ComponentGroupAttribute → Bool) :
    List (ComponentGroupAttribute × (ℕ × ComponentAttribute)) :=
  ((config.memberships.select fun membership => wanted membership && membership.status == "ACTIVE").insertionSort
    (displayOrder ComponentGroupAttribute.displayOrder)).filterMap fun membership =>
      ((config.attributes.get? membership.2.attributeId).filter fun a => a.status == "ACTIVE").map
        fun a => (membership.2, (membership.2.attributeId, a))

theorem mem_activeMemberships {config : Configuration} {wanted : ComponentGroupAttribute → Bool}
    {member : ComponentGroupAttribute × (ℕ × ComponentAttribute)} :
    member ∈ activeMemberships config wanted ↔
      (∃ id, config.memberships.get? id = some member.1) ∧ wanted member.1 = true ∧ member.1.status = "ACTIVE" ∧
        member.1.attributeId = member.2.1 ∧ config.attributes.get? member.2.1 = some member.2.2 ∧
          member.2.2.status = "ACTIVE" := by
  obtain ⟨membership, attributeId, a⟩ := member
  simp only [activeMemberships, List.mem_filterMap, List.mem_insertionSort, Option.map_eq_some_iff, Prod.mk.injEq,
    Option.filter_eq_some_iff, beq_iff_eq]
  constructor
  · rintro ⟨⟨id, m⟩, hm, a', ⟨hget, hactive⟩, rfl, rfl, rfl⟩
    obtain ⟨hrow, hwanted⟩ := Table.mem_select.1 hm
    simp only [Bool.and_eq_true, beq_iff_eq] at hwanted
    exact ⟨⟨id, hrow⟩, hwanted.1, hwanted.2, rfl, hget, hactive⟩
  · rintro ⟨⟨id, hrow⟩, hwanted, hstatus, rfl, hget, hactive⟩
    exact ⟨(id, membership), Table.mem_select.2 ⟨hrow, by simp [hwanted, hstatus]⟩, a, ⟨hget, hactive⟩, rfl, rfl, rfl⟩

end LcsSystem
