import LcsSystem.MasterData.ConfigVersions

/-!
# Layouts of group assignments

`add_tab_group`, `update_tab_group` and `update_group` of
`src/backend/app/modules/master_data/component_config.py`, with `_guard_layout_change`: a layout that shows one
record only must not hide rows that are stored. The order of assignments is left to their numbers.
-/

namespace LcsSystem
open Relational Checks

/-- The layout keys of a request, as the schema hands them on. -/
structure LayoutPayload where
  displayMode : Option String
  dataCardinality : Option String
  formColumns : Option ℤ
  showGroupTitle : Option Bool
  editable : Option Bool
  collapsible : Option Bool
  defaultExpanded : Option Bool
  displayOrder : Option ℤ
  status : Option String
  deriving DecidableEq

def LayoutPayload.empty : LayoutPayload := ⟨none, none, none, none, none, none, none, none, none⟩

/-- `str(value).strip().lower()`. -/
def normalized (s : String) : String := String.ofList ((strip s).toList.map Char.toLower)

def displayModeOf (s : String) : Option DisplayMode :=
  [("form_only", DisplayMode.formOnly), ("table_only", .tableOnly), ("form_and_table", .formAndTable)].lookup (normalized s)

def dataCardinalityOf (s : String) : Option DataCardinality :=
  [("single", DataCardinality.single), ("multiple", .multiple)].lookup (normalized s)

/-- The display mode of a request, over the one that holds so far. -/
def patchedMode (current : DisplayMode) : Option String → Result DisplayMode
  | none => .ok current
  | some s => require (displayModeOf s) (.invalid "Unsupported display mode." [("displayMode", "Unsupported")])

/-- The cardinality of a request. A display mode on its own brings the cardinality that fits it. -/
def patchedCardinality (current : DataCardinality) (mode : DisplayMode) (p : LayoutPayload) : Result DataCardinality :=
  match p.dataCardinality with
  | some s => require (dataCardinalityOf s) (.invalid "Unsupported data cardinality." [("dataCardinality", "Unsupported")])
  | none => .ok (if p.displayMode.isSome then (if mode = .formOnly then .single else .multiple) else current)

/-- `_layout_patch` and `_validate_layout_values`. -/
def patchedLayout (p : LayoutPayload) (current : Layout) : Result Layout := do
  let displayMode ← patchedMode current.displayMode p.displayMode
  let dataCardinality ← patchedCardinality current.dataCardinality displayMode p
  let formColumns := p.formColumns.getD current.formColumns
  check (formColumns ∈ [1, 2, 3, 4]) (.invalid "Form columns must be 1, 2, 3 or 4." [("formColumns", "Unsupported")])
  check (¬(displayMode = .formOnly ∧ dataCardinality = .multiple))
    (.invalid "A form-only group can hold a single record; use form and table for multiple records."
      [("dataCardinality", "Incompatible with form only")])
  return {
    displayMode := displayMode
    dataCardinality := dataCardinality
    formColumns := formColumns
    showGroupTitle := p.showGroupTitle.getD current.showGroupTitle
    editable := p.editable.getD current.editable
    collapsible := p.collapsible.getD current.collapsible
    defaultExpanded := p.defaultExpanded.getD current.defaultExpanded }

/-- The rows of an order in a group that are shown. -/
def shownRows (db : ConfigDb) (orderId groupId : ℕ) : List (ℕ × ComponentRow) :=
  db.rows.select fun row => row.serviceOrderId == orderId && row.groupId == groupId && !row.isArchived

/-- `_orders_with_multiple_rows` finds no order. -/
def OneRowEach (db : ConfigDb) (groupId : ℕ) : Prop := ∀ row ∈ db.rows.values, (shownRows db row.serviceOrderId groupId).length ≤ 1

instance (db : ConfigDb) (groupId : ℕ) : Decidable (OneRowEach db groupId) :=
  inferInstanceAs (Decidable (∀ row ∈ db.rows.values, _))

/-- The comparison of `_guard_layout_change`; a layout that is single in both ways already is not guarded. -/
def becomesSingle (current target : Layout) : Bool :=
  target.isSingle && (current.dataCardinality ≠ .single || current.displayMode ≠ .formOnly)

/-- `_guard_layout_change`. -/
def guardLayoutChange (db : ConfigDb) (groupId : ℕ) (current target : Layout) : Result PUnit :=
  check (becomesSingle current target = false ∨ OneRowEach db groupId) (.conflict "LAYOUT_CHANGE_WOULD_HIDE_ROWS"
    ("This group already has Service Orders with more than one saved record. " ++
      "A single-record layout would hide them; keep multiple records or remove the extra rows first.")
    [("dataCardinality", "Incompatible with saved records")])

/-- The assignment with every layout column set. -/
def ComponentTabGroup.withLayout (link : ComponentTabGroup) (layout : Layout) : ComponentTabGroup :=
  { link with
    displayMode := some layout.displayMode
    dataCardinality := some layout.dataCardinality
    formColumns := some layout.formColumns
    showGroupTitle := some layout.showGroupTitle
    editable := some layout.editable
    collapsible := some layout.collapsible
    defaultExpanded := some layout.defaultExpanded }

/-- `int(displayOrder)`, else ten after the greatest one of the tab. -/
def nextDisplayOrder (db : ConfigDb) (tabId : ℕ) : ℤ :=
  (((db.tabGroups.select fun link => link.tabId == tabId).map fun link => link.2.displayOrder).max?).getD 0 + 10

/-- `add_tab_group`. -/
def addTabGroup (db : ConfigDb) (tabId groupId : ℕ) (p : LayoutPayload) : Result ConfigDb := do
  let _ ← require (db.tabs.get? tabId) (.notFound "Component tab not found.")
  let group ← require (db.groups.get? groupId) (.notFound "Component group not found.")
  check (∀ link ∈ db.tabGroups.values, ¬(link.tabId = tabId ∧ link.groupId = groupId))
    (.conflict "DUPLICATE_TAB_GROUP" "This group is already on the tab." [("groupId", "Already in use")])
  let layout ← patchedLayout p group.renderMode.legacyLayout
  guardLayoutChange db groupId group.renderMode.legacyLayout layout
  let link : ComponentTabGroup := {
    tabId := tabId
    groupId := groupId
    displayOrder := p.displayOrder.getD (nextDisplayOrder db tabId)
    displayMode := none
    dataCardinality := none
    formColumns := none
    showGroupTitle := none
    editable := none
    collapsible := none
    defaultExpanded := none
    status := (p.status.filter fun status => status ≠ "").getD "ACTIVE" }
  return { db with tabGroups := db.tabGroups.insert (link.withLayout layout) }

/-- `update_tab_group`. -/
def updateTabGroup (db : ConfigDb) (tabGroupId : ℕ) (p : LayoutPayload) : Result ConfigDb := do
  let link ← require (db.tabGroups.get? tabGroupId) (.notFound "Tab group not found.")
  let group ← require (db.groups.get? link.groupId) (.notFound "Component group not found.")
  let layout ← patchedLayout p (resolveLayout link group)
  guardLayoutChange db link.groupId (resolveLayout link group) layout
  return { db with
    tabGroups := db.tabGroups.modify tabGroupId fun link => { link.withLayout layout with
      displayOrder := p.displayOrder.getD link.displayOrder
      status := p.status.getD link.status } }

/-- The keys of a group request; the schema has checked the render mode. -/
structure GroupPayload where
  name : Option String
  nameKm : Option String
  renderMode : Option RenderMode
  isActive : Option Bool
  isArchived : Option Bool
  deriving DecidableEq

/-- The columns of a group after a request; an archived group is not active. -/
def ComponentGroup.patched (group : ComponentGroup) (p : GroupPayload) : ComponentGroup :=
  { group with
    name := p.name.getD group.name
    nameKm := p.nameKm.or group.nameKm
    renderMode := p.renderMode.getD group.renderMode
    isActive := if p.isArchived = some true then false else p.isActive.getD group.isActive
    isArchived := p.isArchived.getD group.isArchived }

/-- `update_group`; a change of the render mode is not guarded. -/
def updateGroup (db : ConfigDb) (groupId : ℕ) (p : GroupPayload) : Result ConfigDb := do
  let _ ← require (db.groups.get? groupId) (.notFound "Component group not found.")
  return { db with groups := db.groups.modify groupId fun group => group.patched p }

end LcsSystem
