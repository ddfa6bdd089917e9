import LcsSystem.Archive.Records
import LcsSystem.Lib.Transition
import LcsSystem.MasterData.DocumentTypes

/-!
# Bulk deletes

`delete_reference` and `delete_generic` (`src/backend/app/modules/master_data/service.py:1438-1476`, `1584-1601`), any
number of them at a time. A request reads its rows and checks all of them first; `archive_record` then commits one row
after the other.

| here                  | there                                                                    |
|-----------------------|--------------------------------------------------------------------------|
| `DeleteStage.reading` | the loop of `session.get` over the ids                                    |
| `archiveLoaded`       | `archive_record` on a row that the session holds: it is read again for the lock, and its attributes stay as they were loaded |
| `DeleteOutcome`       | what a request has come to; `done` is what it has committed                |

The rows of a collection come in the order of their table, and every commit goes through. `currencyRates`, which the
archive does not know, reads as an unknown collection; the parties that have a role are part of the request.
-/

namespace LcsSystem
open Relational

inductive DeleteKind
  | reference | generic
  deriving DecidableEq

structure DeleteRequest where
  kind : DeleteKind
  collection : String
  ids : List ℕ
  userId : ℕ
  /-- The party roles that a party has. -/
  rolesInUse : List ℕ

namespace DeleteRequest

/-- The table of the collection, and how the archive knows it. -/
def adapter (r : DeleteRequest) : Option ArchiveAdapter :=
  match r.kind with
  | .reference => archiveRegistry.find? fun adapter => adapter.entityType == r.collection
  | .generic => some (genericAdapter (r.collection, (archivableGenericCollections.lookup r.collection).getD ""))

/-- The rows of the collection are archived, not removed. -/
def archives (r : DeleteRequest) : Bool :=
  match r.kind with
  | .reference => true
  | .generic => archivableGenericCollections.any fun c => c.1 == r.collection

def found (r : DeleteRequest) (db : ArchiveDb) (id : ℕ) : Option EntityRow :=
  r.adapter.bind fun adapter => entityRow db adapter id

end DeleteRequest

/-! ## The guards -/

/-- `str(status or "").strip().upper() == "ACTIVE"`. -/
def EntityRow.isActive (row : EntityRow) : Bool :=
  match row.column "status" with
  | .str s => upper (strip s) == "ACTIVE"
  | _ => false

def EntityRow.isCanonical (row : EntityRow) : Bool :=
  match row.column "code" with
  | .str code => canonicalDocumentBehaviors.contains code
  | _ => false

/-- Why the rows that were read are not deleted. -/
def DeleteRequest.refusal (r : DeleteRequest) (rows : List (ℕ × EntityRow)) : Option Error :=
  match r.kind with
  | .reference =>
    if rows.any fun x => x.2.isActive then
      some (.conflict "REFERENCE_ACTIVE" "Active records cannot be deleted. Deactivate the record first." [])
    else if r.collection = "documentTypes" ∧ rows.any (fun x => x.2.isCanonical) = true then
      some (.conflict "SYSTEM_DOCUMENT_TYPE" "Canonical document types cannot be deleted. Deactivate one instead." [])
    else if r.collection = "partyRoles" ∧ rows.any (fun x => r.rolesInUse.contains x.1) = true then
      some (.conflict "PARTY_ROLE_IN_USE"
        "This party role is assigned to a business party. Deactivate it instead of deleting it." [])
    else none
  | .generic =>
    if rows.any fun x => x.2.isActive then
      some (.conflict "RECORD_ACTIVE"
        ("Active " ++ r.collection ++ " record cannot be deleted. Deactivate the record first.") [])
    else none

/-! ## Commits -/

/-- `archive_record` with the row as the session has loaded it. -/
def archiveLoaded (db : ArchiveDb) (adapter : ArchiveAdapter) (id : ℕ) (row : EntityRow) (call : ArchiveCall) : ArchiveDb :=
  ArchiveSession.begin db
    |>.write (putArchivedRecord (archivedRecord adapter id row call))
    |>.write (ArchiveDb.updateRow adapter.model id call.now fun stored =>
        { stored with deletedAt := some call.now, deletedByUserId := call.userId })
    |>.write (ArchiveDb.writeAudit ⟨adapter.entityType, id, "DELETE", "SUCCESS", none, recordReference adapter id row⟩)
    |>.commit.committed

/-- For a session that has just loaded the row it is `archive_record`. -/
theorem archiveRecord_eq {db : ArchiveDb} {entityType : String} {adapter : ArchiveAdapter} {id : ℕ} {row : EntityRow}
    {call : ArchiveCall} (hadapter : adapterFor entityType = some adapter) (htype : adapter.entityType = entityType)
    (hrow : entityRow db adapter id = some row) (hdeleted : row.deletedAt = none) (hcommits : call.commits = true) :
    archiveRecord db entityType id call = (.ok ⟨⟩, archiveLoaded db adapter id row call) := by
  subst htype
  simp only [archiveRecord, hadapter, hrow, hdeleted, Option.isSome_none, Bool.false_eq_true, if_false, hcommits, if_true]
  rfl

/-- `session.delete` of every row that was read. -/
def removeLoaded (db : ArchiveDb) (model : EntityModel) (ids : List ℕ) : ArchiveDb :=
  { db with rows := Function.update db.rows model ((db.rows model).erase fun i _ => ids.contains i) }

/-! ## Open requests -/

inductive DeleteStage
  | opened
  | reading (todo : List ℕ) (rows : List (ℕ × EntityRow))
  | archiving (rows todo : List (ℕ × EntityRow)) (done : List ℕ)
  | removing (rows : List (ℕ × EntityRow))

structure DeleteOutcome where
  request : DeleteRequest
  rows : List (ℕ × EntityRow)
  done : List ℕ
  result : Result PUnit.{1}
  db : ArchiveDb

structure DeleteState where
  db : ArchiveDb
  requests : Table (DeleteRequest × DeleteStage)
  log : List DeleteOutcome

inductive DeleteAction
  | start (r : DeleteRequest)
  | advance (id now : ℕ)

namespace DeleteState

/-- A database without open requests. -/
def idle (db : ArchiveDb) : DeleteState := ⟨db, .empty, []⟩

def continues (s : DeleteState) (id : ℕ) (r : DeleteRequest) (stage : DeleteStage) : DeleteState :=
  { s with requests := s.requests.modify id fun _ => (r, stage) }

/-- The request is answered. -/
def ends (s : DeleteState) (id : ℕ) (r : DeleteRequest) (rows : List (ℕ × EntityRow)) (done : List ℕ)
    (result : Result PUnit.{1}) : DeleteState :=
  { s with
    requests := s.requests.erase fun i _ => i == id
    log := s.log ++ [⟨r, rows, done, result, s.db⟩] }

/-- The first statements: the rows of a reference collection are read at once. -/
def opens (s : DeleteState) (id : ℕ) (r : DeleteRequest) (adapter : ArchiveAdapter) : DeleteState :=
  match r.kind with
  | .generic => s.continues id r (.reading r.ids [])
  | .reference =>
    let rows := (s.db.rows adapter.model).rows.filter fun x => r.ids.contains x.1
    match r.refusal rows with
    | some e => s.ends id r rows [] (.error e)
    | none => s.continues id r (.archiving rows rows [])

/-- One turn of the loop that reads. A row that was read before is the same object. -/
def reads (s : DeleteState) (id : ℕ) (r : DeleteRequest) (recordId : ℕ) (todo : List ℕ) (rows : List (ℕ × EntityRow)) :
    DeleteState :=
  match (rows.lookup recordId).or (r.found s.db recordId) with
  | none => s.continues id r (.reading todo rows)
  | some row =>
    match r.refusal (rows ++ [(recordId, row)]) with
    | some e => s.ends id r (rows ++ [(recordId, row)]) [] (.error e)
    | none => s.continues id r (.reading todo (rows ++ [(recordId, row)]))

/-- One turn of the loop that archives. A row that the request has archived already has its mark. -/
def archivesNext (s : DeleteState) (id now : ℕ) (r : DeleteRequest) (adapter : ArchiveAdapter)
    (rows : List (ℕ × EntityRow)) (x : ℕ × EntityRow) (todo : List (ℕ × EntityRow)) (done : List ℕ) : DeleteState :=
  match entityRow s.db adapter x.1 with
  | none => s.ends id r rows done (.error (.notFound "Record not found."))
  | some _ =>
    if x.2.deletedAt.isSome = true ∨ x.1 ∈ done then
      s.ends id r rows done (.error (.conflict "ALREADY_ARCHIVED" "The record is already archived." []))
    else
      { s.continues id r (.archiving rows todo (done ++ [x.1])) with
        db := archiveLoaded s.db adapter x.1 x.2 ⟨some r.userId, now, [], true⟩ }

/-- The next statement of a request. -/
def next (s : DeleteState) (id now : ℕ) (r : DeleteRequest) (stage : DeleteStage) : DeleteState :=
  match r.adapter with
  | none => s.ends id r [] [] (.error (.notFound ("Unknown reference collection: " ++ r.collection)))
  | some adapter =>
    match stage with
    | .opened => s.opens id r adapter
    | .reading (recordId :: todo) rows => s.reads id r recordId todo rows
    | .reading [] rows => s.continues id r (if r.archives = true then .archiving rows rows [] else .removing rows)
    | .archiving rows (x :: todo) done => s.archivesNext id now r adapter rows x todo done
    | .archiving rows [] done => s.ends id r rows done (.ok ⟨⟩)
    | .removing rows =>
      { s with db := removeLoaded s.db adapter.model (rows.map Prod.fst) }.ends id r rows (rows.map Prod.fst) (.ok ⟨⟩)

end DeleteState

def deleteStep (s : DeleteState) : DeleteAction → DeleteState
  | .start r => { s with requests := s.requests.insert (r, .opened) }
  | .advance id now =>
    match s.requests.get? id with
    | some open' => s.next id now open'.1 open'.2
    | none => s

/-! ## What is promised -/

/-- Every listed record that is there is archived; or the request has committed nothing. -/
def DeleteOutcome.AllOrNothing (o : DeleteOutcome) : Prop :=
  match o.result with
  | .ok _ => ∀ id ∈ o.request.ids, ∀ row, o.request.found o.db id = some row → row.deletedAt.isSome = true
  | .error _ => o.done = []

/-- The guards refuse the rows, or they are removed; or the first row is archived already, or none is and none is listed
twice. -/
def DeleteOutcome.Uniform (o : DeleteOutcome) : Prop :=
  o.request.adapter = none ∨ o.request.refusal o.rows ≠ none ∨ o.request.archives = false ∨
    (∃ x ∈ o.rows.head?, x.2.deletedAt.isSome = true) ∨
    (∀ x ∈ o.rows, x.2.deletedAt = none) ∧ (o.rows.map Prod.fst).Nodup

end LcsSystem
