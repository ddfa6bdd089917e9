import LcsSystem.MasterData.Snapshots

/-!
# Configuration versions

`src/backend/app/modules/master_data/config_versions.py`: publish, activate, rollback, retire, update and delete of
configuration versions. The digest of a snapshot (`snapshot_hash`, SHA-256 of its JSON) is a parameter.

Times (but for whether `published_at` is set), the snapshot's schema version, the audit events and the rendering of a
version are left out.
-/

namespace LcsSystem
open Relational Checks

inductive VersionStatus
  | draft | published | retired
  deriving DecidableEq

inductive VersionOrigin
  | publish | rollback
  deriving DecidableEq

structure ConfigurationVersion where
  versionNo : ℕ
  scope : String
  status : VersionStatus
  origin : VersionOrigin
  changeNote : Option String
  configSnapshot : Snapshot
  contentHash : Option String
  sourceVersionId : Option ℕ
  publishedByUserId : Option ℕ
  /-- `published_at` is set. -/
  hasPublishedAt : Bool
  activatedByUserId : Option ℕ
  deriving DecidableEq

/-- What the forms need of a `service_orders` row: the version it is pinned to and its direction. -/
structure FormOrder where
  configurationVersionId : Option ℕ
  tradeDirectionId : ℕ
  deriving DecidableEq

/-- The configuration with its versions, the saved rows and their orders. `referenceIds` is what `_reference_options`
finds for a reference type and an order, in tables that are not written here. -/
structure ConfigDb extends Configuration where
  versions : Table ConfigurationVersion
  rows : Table ComponentRow
  orders : Table FormOrder
  referenceIds : String → ℕ → List ℤ

/-! ## Selections -/

/-- `_published_version`. -/
def publishedVersion (db : ConfigDb) : Option (ℕ × ConfigurationVersion) :=
  db.versions.rows.find? fun r => r.2.status == .published

/-- `_next_version_no`. -/
def nextVersionNo (db : ConfigDb) : ℕ := (db.versions.values.map ConfigurationVersion.versionNo).foldl max 0 + 1

/-- `_get_version_for_update`. -/
def getVersion (db : ConfigDb) (id : ℕ) : Result ConfigurationVersion :=
  require (db.versions.get? id) (.notFound "Configuration version not found.")

/-! ## Writes -/

def setVersionStatus (db : ConfigDb) (id : ℕ) (status : VersionStatus) : ConfigDb :=
  { db with versions := db.versions.modify id fun v => { v with status := status } }

/-- The version that was live is retired. -/
def retireLive (db : ConfigDb) (live : Option (ℕ × ConfigurationVersion)) : ConfigDb :=
  match live with
  | some live => setVersionStatus db live.1 .retired
  | none => db

def ComponentTab.stamped (versionId : ℕ) (tab : ComponentTab) : ComponentTab :=
  { tab with configVersionId := if tab.isArchived then tab.configVersionId else some versionId }

/-- `_stamp_live_tabs`. -/
def stampLiveTabs (db : ConfigDb) (versionId : ℕ) : ConfigDb := { db with tabs := db.tabs.map (ComponentTab.stamped versionId) }

/-- The unique constraint of `version_no` and the partial unique index of PUBLISHED. -/
def VersionUnique (db : ConfigDb) (v : ConfigurationVersion) : Prop :=
  ∀ old ∈ db.versions.values, old.versionNo ≠ v.versionNo ∧ (v.status = .published → old.status ≠ .published)

instance (db : ConfigDb) (v : ConfigurationVersion) : Decidable (VersionUnique db v) :=
  inferInstanceAs (Decidable (∀ old ∈ db.versions.values, _))

def insertVersion (db : ConfigDb) (v : ConfigurationVersion) : Result (ConfigDb × ℕ) := do
  check (VersionUnique db v) (.conflict "CONFIGURATION_PUBLISH_CONFLICT"
    "Another configuration was published at the same time; reload and try again." [])
  return (stampLiveTabs { db with versions := db.versions.insert v } db.versions.nextId, db.versions.nextId)

/-! ## Requests -/

/-- `if live is not None and live.config_snapshot == snapshot`. -/
def checkChanged (live : Option (ℕ × ConfigurationVersion)) (snapshot : Snapshot) : Result PUnit :=
  check (∀ v ∈ live, v.2.configSnapshot ≠ snapshot) (.conflict "CONFIGURATION_UNCHANGED"
    "The active configuration matches the published version; nothing to publish." [])

/-- `publish` up to the lock: the snapshot passes its checks and differs from the version that is live. -/
def checkPublish (db : ConfigDb) (snapshot : Snapshot) : Result PUnit := do
  check (validateSnapshot snapshot = []) (.invalid "The live configuration cannot be published." (validateSnapshot snapshot))
  checkChanged (publishedVersion db) snapshot

section
variable (hash : Snapshot → String)

/-- `publish` under the lock: the snapshot that was built before becomes the live version. -/
def publishSnapshot (db : ConfigDb) (snapshot : Snapshot) (changeNote : Option String) (userId : Option ℕ) :
    Result (ConfigDb × ℕ) := do
  let live := publishedVersion db
  checkChanged live snapshot
  let note := (changeNote.map strip).filter fun note => note ≠ ""
  let retired := retireLive db live
  insertVersion retired {
    versionNo := nextVersionNo retired
    scope := "GLOBAL"
    status := .published
    origin := .publish
    changeNote := note
    configSnapshot := snapshot
    contentHash := some (hash snapshot)
    sourceVersionId := none
    publishedByUserId := userId
    hasPublishedAt := true
    activatedByUserId := userId }

/-- `_ensure_activatable`. -/
def ensureActivatable (v : ConfigurationVersion) : Result PUnit := do
  check (v.status ≠ .draft) (.conflict "CONFIGURATION_VERSION_NOT_PUBLISHED"
    "Only a published or retired version can be activated." [])
  check (v.configSnapshot.tabs ≠ []) (.conflict "CONFIGURATION_VERSION_INCOMPATIBLE"
    "This version has no tab configuration and cannot be activated." [])

/-- `activate`; the version that is live is returned as it is. -/
def activateVersion (db : ConfigDb) (id : ℕ) (userId : Option ℕ) : Result ConfigDb := do
  let target ← getVersion db id
  ensureActivatable target
  let current := publishedVersion db
  if ∃ v ∈ current, v.1 = id then return db
  else
    check (∀ v ∈ current, v.2.scope = target.scope) (.conflict "CONFIGURATION_VERSION_INCOMPATIBLE"
      "This version belongs to a different configuration scope and cannot be activated here." [])
    let retired := retireLive db current
    let activated : ConfigDb := { retired with
      versions := retired.versions.modify id fun v => { v with status := .published, activatedByUserId := userId } }
    return stampLiveTabs activated id

/-- `rollback`: a new version with the snapshot of an older one. -/
def rollbackVersion (db : ConfigDb) (id : ℕ) (reason : String) (userId : Option ℕ) : Result (ConfigDb × ℕ) := do
  check (strip reason ≠ "") (.invalid "A rollback reason is required." [("reason", "Required")])
  let target ← getVersion db id
  ensureActivatable target
  let current := publishedVersion db
  check (∀ v ∈ current, v.1 ≠ id) (.conflict "CONFIGURATION_VERSION_ALREADY_ACTIVE"
    "That version is already active; choose an older version to roll back to." [])
  check (∀ v ∈ current, v.2.scope = target.scope) (.conflict "CONFIGURATION_VERSION_INCOMPATIBLE"
    "This version belongs to a different configuration scope and cannot be rolled back here." [])
  let retired := retireLive db current
  insertVersion retired {
    versionNo := nextVersionNo retired
    scope := target.scope
    status := .published
    origin := .rollback
    changeNote := some (strip reason)
    configSnapshot := target.configSnapshot
    contentHash := some ((target.contentHash.filter fun h => h ≠ "").getD (hash target.configSnapshot))
    sourceVersionId := some id
    publishedByUserId := userId
    hasPublishedAt := true
    activatedByUserId := userId }

end

/-- `retire`. -/
def retireVersion (db : ConfigDb) (id : ℕ) : Result ConfigDb := do
  let version ← getVersion db id
  if version.status = .retired then return db
  else
    check (version.status ≠ .published) (.conflict "CANNOT_RETIRE_PUBLISHED"
      "Activate another configuration instead of retiring the live version." [])
    return setVersionStatus db id .retired

/-- `update_draft`: the name of a draft. -/
def updateDraft (db : ConfigDb) (id : ℕ) (changeNote : String) : Result ConfigDb := do
  let version ← getVersion db id
  check (version.status = .draft) (.conflict "CONFIGURATION_VERSION_IMMUTABLE"
    "Published configuration versions are immutable; roll back to create a new version instead." [])
  check (strip changeNote ≠ "") (.invalid "A version name is required." [("changeNote", "Required")])
  return { db with versions := db.versions.modify id fun v => { v with changeNote := some (strip changeNote) } }

def versionReferenced (label : String) : Error :=
  .conflict "CONFIGURATION_VERSION_REFERENCED"
    ("This draft is referenced by " ++ label ++ " and cannot be deleted.") []

/-- `delete_draft`: a draft that nothing refers to. -/
def deleteDraft (db : ConfigDb) (id : ℕ) : Result ConfigDb := do
  let version ← getVersion db id
  check (version.status = .draft) (.conflict "CONFIGURATION_VERSION_NOT_DELETABLE"
    "Only a draft version can be deleted; published and retired versions preserve their history." [])
  check (∀ order ∈ db.orders.values, order.configurationVersionId ≠ some id) (versionReferenced "a Service Order")
  check (∀ row ∈ db.rows.values, row.configVersionId ≠ some id) (versionReferenced "a component row")
  check (∀ tab ∈ db.tabs.values, tab.configVersionId ≠ some id) (versionReferenced "a live tab")
  check (∀ v ∈ db.versions.values, v.sourceVersionId ≠ some id) (versionReferenced "another version")
  return { db with versions := db.versions.erase fun i _ => i == id }

end LcsSystem
