import LcsSystem.MasterData.ComponentTables

/-!
# Snapshots of the component configuration

`src/backend/app/modules/master_data/config_snapshot.py` and `live_snapshot`, `validate_snapshot` of
`config_versions.py`. Ids stand as numbers for their texts; `width` and `tabGroupId` are the two keys that
`live_snapshot` adds to what `config_snapshot.py` builds.
-/

namespace LcsSystem
open Relational

structure AttributeEntry where
  id : ℕ
  code : String
  label : String
  labelKm : Option String
  dataType : DataType
  inputType : Option String
  referenceType : Option String
  isRequired : Bool
  isVisible : Bool
  defaultValue : Option String
  placeholder : Option String
  options : List Json
  validationRules : List (String × Json)
  displayOrder : ℤ
  width : Option String
  deriving DecidableEq

structure GroupEntry where
  id : ℕ
  code : String
  name : String
  nameKm : Option String
  renderMode : RenderMode
  displayOrder : ℤ
  attributes : List AttributeEntry
  layout : Layout
  tabGroupId : Option ℕ
  deriving DecidableEq

structure TabEntry where
  id : ℕ
  code : String
  name : String
  tradeDirectionId : Option ℕ
  displayOrder : ℤ
  groups : List GroupEntry
  deriving DecidableEq

structure Snapshot where
  tabs : List TabEntry
  deriving DecidableEq

/-! ## Entries -/

/-- `key=lambda item: (item["displayOrder"], item["code"])`. -/
def entryOrder {α : Type} (order : α → ℤ) (code : α → String) (a b : α) : Prop :=
  order a < order b ∨ order a = order b ∧ ¬code b < code a

instance {α : Type} (order : α → ℤ) (code : α → String) : DecidableRel (entryOrder order code) :=
  fun _ _ => inferInstanceAs (Decidable (_ ∨ _ ∧ _))

/-- `attribute_entry`, with the width that `live_snapshot` adds. -/
def attributeEntry (a : ℕ × ComponentAttribute) (membership : ComponentGroupAttribute) : AttributeEntry where
  id := a.1
  code := a.2.code
  label := a.2.label
  labelKm := a.2.labelKm
  dataType := a.2.dataType
  inputType := a.2.inputType
  referenceType := a.2.referenceType
  isRequired := membership.isRequired.getD a.2.isRequired
  isVisible := membership.isVisible
  defaultValue := a.2.defaultValue
  placeholder := a.2.placeholder
  options := a.2.options
  validationRules := a.2.validationRules
  displayOrder := membership.displayOrder
  width := a.2.width

def sortAttributes (entries : List AttributeEntry) : List AttributeEntry :=
  entries.insertionSort (entryOrder AttributeEntry.displayOrder AttributeEntry.code)

def sortGroups (entries : List GroupEntry) : List GroupEntry :=
  entries.insertionSort (entryOrder GroupEntry.displayOrder GroupEntry.code)

/-- `layout_entry`: what the assignment sets, over the layout of the render mode. -/
def layoutEntry (mode : RenderMode) (link : ComponentTabGroup) : Layout where
  displayMode := link.displayMode.getD (if mode = .form then .formOnly else .tableOnly)
  dataCardinality := link.dataCardinality.getD (if mode = .form then .single else .multiple)
  formColumns := link.formColumns.getD 3
  showGroupTitle := link.showGroupTitle.getD true
  editable := link.editable.getD true
  collapsible := link.collapsible.getD false
  defaultExpanded := link.defaultExpanded.getD true

/-- `group_entry`, with the assignment that `live_snapshot` adds. -/
def groupEntry (link : ℕ × ComponentTabGroup) (group : ComponentGroup) (attributes : List AttributeEntry) : GroupEntry where
  id := link.2.groupId
  code := group.code
  name := group.name
  nameKm := group.nameKm
  renderMode := group.renderMode
  displayOrder := link.2.displayOrder
  attributes := sortAttributes attributes
  layout := layoutEntry group.renderMode link.2
  tabGroupId := some link.1

def tabEntry (tab : ℕ × ComponentTab) (groups : List GroupEntry) : TabEntry where
  id := tab.1
  code := tab.2.code
  name := tab.2.name
  tradeDirectionId := tab.2.tradeDirectionId
  displayOrder := tab.2.displayOrder
  groups := sortGroups groups

def buildSnapshot (tabs : List TabEntry) : Snapshot := ⟨tabs.insertionSort (entryOrder TabEntry.displayOrder TabEntry.code)⟩

/-! ## The live configuration -/

/-- The live tabs, in their order. -/
def liveTabs (config : Configuration) : List (ℕ × ComponentTab) :=
  (config.tabs.select ComponentTab.isLive).insertionSort (displayOrder ComponentTab.displayOrder)

/-- What the second statement of `live_snapshot` finds for these tabs. -/
def tabGroupsOf (config : Configuration) (tabs : List (ℕ × ComponentTab)) :
    List ((ℕ × ComponentTabGroup) × ComponentGroup) :=
  activeTabGroups config fun link => tabs.any fun tab => tab.1 == link.tabId

/-- What the third statement finds for these groups. -/
def membershipsOf (config : Configuration) (tabGroups : List ((ℕ × ComponentTabGroup) × ComponentGroup)) :
    List (ComponentGroupAttribute × (ℕ × ComponentAttribute)) :=
  activeMemberships config fun membership => tabGroups.any fun link => link.1.2.groupId == membership.groupId

/-- `attributes_by_group.get(group_id, [])`. -/
def attributeEntriesOf (memberships : List (ComponentGroupAttribute × (ℕ × ComponentAttribute))) (groupId : ℕ) :
    List AttributeEntry :=
  (memberships.filter fun m => m.1.groupId == groupId).map fun m => attributeEntry m.2 m.1

/-- `groups_by_tab.get(tab_id, [])`. -/
def groupEntriesOf (tabGroups : List ((ℕ × ComponentTabGroup) × ComponentGroup))
    (memberships : List (ComponentGroupAttribute × (ℕ × ComponentAttribute))) (tabId : ℕ) : List GroupEntry :=
  (tabGroups.filter fun link => link.1.2.tabId == tabId).map fun link =>
    groupEntry link.1 link.2 (attributeEntriesOf memberships link.1.2.groupId)

/-- What the three statements found, put together. -/
def assembleSnapshot (tabs : List (ℕ × ComponentTab)) (tabGroups : List ((ℕ × ComponentTabGroup) × ComponentGroup))
    (memberships : List (ComponentGroupAttribute × (ℕ × ComponentAttribute))) : Snapshot :=
  buildSnapshot (tabs.map fun tab => tabEntry tab (groupEntriesOf tabGroups memberships tab.1))

/-- `live_snapshot` of one state of the tables. -/
def liveSnapshot (config : Configuration) : Snapshot :=
  let tabs := liveTabs config
  let tabGroups := tabGroupsOf config tabs
  assembleSnapshot tabs tabGroups (membershipsOf config tabGroups)

/-! ## Validation -/

/-- The errors of the attributes of a group, given the codes before them. -/
def attributeErrors (pre : String) : ℕ → List String → List AttributeEntry → List (String × String)
  | _, _, [] => []
  | index, seen, entry :: rest =>
    let prefix' := pre ++ ".attributes." ++ toString index
    let code := strip entry.code
    (if code = "" then [(prefix' ++ ".code", "Required")]
      else if code ∈ seen then [(prefix' ++ ".code", "Duplicate attribute in this group.")] else []) ++
    (if strip entry.label = "" then [(prefix' ++ ".label", "Required")] else []) ++
    (if entry.dataType = .reference ∧ ∀ type ∈ entry.referenceType, type ∉ referenceTypes then
      [(prefix' ++ ".referenceType", "Required")] else []) ++
    attributeErrors pre (index + 1) (code :: seen) rest

def groupErrors (pre : String) (group : GroupEntry) : List (String × String) :=
  (if strip group.code = "" then [(pre ++ ".code", "Required")] else []) ++
  (if strip group.name = "" then [(pre ++ ".name", "Required")] else []) ++
  (if group.layout.displayMode = .formOnly ∧ group.layout.dataCardinality = .multiple then
    [(pre ++ ".dataCardinality", "A form-only group can hold one record.")] else []) ++
  (if group.layout.formColumns ∉ [1, 2, 3, 4] then [(pre ++ ".formColumns", "Must be 1, 2, 3 or 4.")] else []) ++
  attributeErrors pre 0 [] group.attributes

def tabErrors (pre : String) (tab : TabEntry) : List (String × String) :=
  (if strip tab.code = "" then [(pre ++ ".code", "Required")] else []) ++
  (if strip tab.name = "" then [(pre ++ ".name", "Required")] else []) ++
  (tab.groups.zipIdx.map fun (group, index) => groupErrors (pre ++ ".groups." ++ toString index) group).flatten

/-- `validate_snapshot`. -/
def validateSnapshot (snapshot : Snapshot) : List (String × String) :=
  if snapshot.tabs = [] then
    [("tabs", "Create at least one active tab before publishing."),
      ("changeNote", "Create at least one active tab before publishing.")]
  else (snapshot.tabs.zipIdx.map fun (tab, index) => tabErrors ("tabs." ++ toString index) tab).flatten

end LcsSystem
