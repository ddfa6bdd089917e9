import LcsSystem.ExcelIo.Modules
import LcsSystem.Lib.Table
import LcsSystem.Lib.Transition

/-!
# The confirmation of an import

`validate_rows`, `claim_session`, `cancel_import` and `confirm_import` of `src/backend/app/modules/excel_io/service.py`
(240-336, 432-610), over `create_reference` and `update_reference` of `modules/master_data/service.py:1345-1447` without
their commit. Confirm and cancel calls take their steps in any order; between two steps other writers change the records
as they like.

| here                  | there                                                                            |
|-----------------------|----------------------------------------------------------------------------------|
| `Pipeline`            | the `Spec` of a collection, its callables as they are, and its schema             |
| `Pipeline.revise`     | the part that `_pipeline`, `create_reference` and `update_reference` share         |
| `Pipeline.constraint` | the unique indexes and the other constraints of the table, checked at each statement |
| `Pipeline.flushes`    | `session.flush()`: the changed records in the order of their keys, then the new one    |
| `Item`                | a row of the preview: its action with what the action is applied to               |
| `Confirmation`        | what a confirmation read and left, kept beside the tables                         |

An import row names no reference, so `apply_input` sets attributes only; the roles of a business party and the audit row
are left out. A `SELECT` does not see the updates that the session has not flushed: they never change a match key
(`Collection.keeps`), which is all that is selected on. A row of the preview that fails leaves the fetched model as it was:
then nothing of the batch is written.
-/

namespace LcsSystem.ExcelIo
open Relational

/-- A record of the collection. -/
structure RecordRow where
  attrs : String → Option Value
  deleted : Bool := false

abbrev Records := Table RecordRow

/-- What the schema hands on; a key may be sent empty. -/
abbrev Payload := List (String × Option Value)

structure Pipeline where
  module : ImportModule
  /-- The attribute of each API key. -/
  fields : List (String × String)
  transform : Data → Result Data
  /-- `_spec_schema(spec).validate`, partial or whole. -/
  schema : Bool → Data → Result Payload
  required : List String
  /-- The value that `apply_input` sets, by the type of the column. -/
  convert : String → Option Value → Result (Option Value)
  validateData : Records → RecordRow → Payload → Result RecordRow
  constraint : Records → Bool

namespace Pipeline
variable (c : Pipeline)

def attrOf (key : String) : String := (c.fields.lookup key).getD key

def isBlank : Option Value → Bool
  | none => true
  | some (.text s) => strip s == ""
  | some _ => false

/-- The required keys that neither the payload nor the record fills. -/
def missing (row : RecordRow) (payload : Payload) : List String :=
  c.required.filter fun key => isBlank ((payload.lookup key).getD none) && isBlank (row.attrs (c.attrOf key))

def setAttr (row : RecordRow) (attr : String) (value : Option Value) : RecordRow :=
  { row with attrs := Function.update row.attrs attr value }

/-- `apply_input`. -/
def applyInput (payload : Payload) : List (String × String) → RecordRow → Result RecordRow
  | [], row => .ok row
  | (key, attr) :: fields, row =>
    match payload.lookup key with
    | some value =>
      match c.convert attr value with
      | .ok converted => applyInput payload fields (setAttr row attr converted)
      | .error e => .error e
    | none => applyInput payload fields row

def revise (create : Bool) (records : Records) (row : RecordRow) (data : Data) : Result RecordRow := do
  let transformed ← c.transform data
  let payload ← c.schema (!create) transformed
  if c.missing row payload ≠ [] then
    .error (.invalid "Please complete the required fields."
      ((c.missing row payload).map fun key => (key, "This field is required.")))
  else
    let applied ← c.applyInput payload c.fields row
    c.validateData records applied payload

/-- `model()`. -/
def blank : RecordRow := ⟨fun _ => none, false⟩

/-- The record has the match key of the row. -/
def isMatch (data : Data) (row : RecordRow) : Bool :=
  !row.deleted && c.module.matchKey.all fun key => decide (row.attrs (c.attrOf key) = data.lookup key)

/-- `_match_existing`: a row with an empty part of its key matches nothing. -/
def matchExisting (records : Records) (data : Data) : Option (ℕ × RecordRow) :=
  if c.module.matchKey.all fun key => !decide (data.lookup key ∈ [none, some (.text "")]) then
    records.rows.find? fun r => c.isMatch data r.2
  else none

/-- The columns that an import may change. -/
def updates (data : Data) : Data := data.filter fun e => c.module.mayUpdate e.1

end Pipeline

/-- Both records have the same match key. -/
def SameKey (c : Pipeline) (a b : RecordRow) : Prop :=
  b.deleted = a.deleted ∧ ∀ key ∈ c.module.matchKey, b.attrs (c.attrOf key) = a.attrs (c.attrOf key)

structure Collection extends Pipeline where
  /-- `updatable=camel not in match_key + fixed`. -/
  matchFixed : ∀ key ∈ module.matchKey, module.mayUpdate key = false
  /-- No transform, schema or check fills in a match key. -/
  keeps : ∀ records row data revised, toPipeline.revise false records row data = .ok revised →
    (∀ key ∈ module.matchKey, data.lookup key = none) → SameKey toPipeline row revised

/-! ## The preview -/

inductive ImportMode
  | createOnly
  | createAndUpdate
  | validateOnly
  deriving DecidableEq

inductive Item
  | create (data : Data)
  | update (data : Data) (id : ℕ)
  | skip (id : ℕ)
  | error (messages : List String)
  deriving DecidableEq

namespace Item

def isCreate : Item → Bool
  | create _ => true
  | _ => false

/-- The record that an `UPDATE` names. -/
def updateId? : Item → Option ℕ
  | update _ id => some id
  | _ => none

/-- The record that a `SKIP` names. -/
def skipId? : Item → Option ℕ
  | skip id => some id
  | _ => none

def isError : Item → Bool
  | error _ => true
  | _ => false

end Item

def isValidation : Error → Bool
  | .validationFailed _ _ _ => true
  | _ => false

/-- `exc.message`. -/
def errorMessage : Error → String
  | .notFound message | .invalidState message | .conflict _ message _ | .validationFailed message _ _ | .database message =>
    message

/-- The message and the fields of a `ValidationFailed`. -/
def errorLines : Error → List String
  | .validationFailed message fields _ => message :: fields.map fun e => s!"{e.1}: {e.2}"
  | e => [errorMessage e]

/-- A `ValidationFailed` becomes the row's error, another exception leaves the loop. -/
def caught : Error → Result Item
  | .validationFailed message fields errors => .ok (.error (errorLines (.validationFailed message fields errors)))
  | e => .error e

namespace Pipeline
variable (c : Pipeline)

/-- The action for the data of a row, and the records as the session has them behind it: `_pipeline` leaves its changes in
the fetched models. -/
def itemOf (mode : ImportMode) (view : Records) (data : Data) : Result (Item × Records) :=
  match c.matchExisting view data with
  | some (id, row) =>
    if mode = .createOnly then .ok (.skip id, view)
    else
      match c.revise false view row (c.updates data) with
      | .ok revised => .ok (.update data id, view.modify id fun _ => revised)
      | .error e => do
        let item ← caught e
        return (item, view)
  | none =>
    match c.revise true view blank data with
    | .ok _ => .ok (.create data, view)
    | .error e => do
      let item ← caught e
      return (item, view)

/-- `validate_rows`; `seen` are the identifiers so far, with their rows. -/
def validateRows (readings : Readings) (mode : ImportMode) :
    List (String × ℕ) → Records → List ParsedRow → Result (List Item)
  | _, _, [] => .ok []
  | seen, view, row :: rows =>
    match rowData readings c.module row with
    | .error e => do
      let item ← caught e
      let rest ← validateRows readings mode seen view rows
      return item :: rest
    | .ok data =>
      let identity := c.module.identifier readings data
      match (if identity = "" then none else seen.lookup identity) with
      | some duplicateRow => do
        let rest ← validateRows readings mode seen view rows
        return .error [s!"Row {duplicateRow} in this file already uses this identifier.",
          c.module.matchKey.headD "" ++ ": Duplicate row within the workbook."] :: rest
      | none => do
        let (item, next) ← c.itemOf mode view data
        let rest ← validateRows readings mode
          (if identity = "" then seen else seen ++ [(identity, row.excelRow)]) next rows
        return item :: rest

end Pipeline

/-! ## The batch -/

inductive JobStatus
  | completed
  | failed
  deriving DecidableEq

structure ImportJob where
  status : JobStatus
  mode : ImportMode
  totalRows : ℕ
  created : ℕ
  updated : ℕ
  skipped : ℕ
  failed : ℕ
  errorSummary : Option String
  deriving DecidableEq

structure ImportSession where
  token : String
  userId : ℕ
  mode : ImportMode
  rows : List ParsedRow
  expiresAt : ℕ
  deriving DecidableEq

/-- `_record_job` with `preview_summary`. -/
def recordJob (session : ImportSession) (status : JobStatus) (preview : List Item) (errorSummary : Option String) : ImportJob :=
  ⟨status, session.mode, session.rows.length, preview.countP Item.isCreate, (preview.filterMap Item.updateId?).length,
    (preview.filterMap Item.skipId?).length, preview.countP Item.isError, errorSummary⟩

/-- The job of a batch that failed for another reason than its preview. -/
def failedJob (session : ImportSession) (message : String) : ImportJob :=
  ⟨.failed, session.mode, session.rows.length, 0, 0, 0, session.rows.length, some (String.ofList (message.toList.take 2000))⟩

/-- `_error_text`. -/
def errorText (session : ImportSession) (preview : List Item) : String :=
  let lines := (session.rows.zip preview).filterMap fun p =>
    match p.2 with
    | .error messages => some (s!"Row {p.1.excelRow}: " ++ String.intercalate "; " messages)
    | _ => none
  String.ofList ((String.intercalate "\n" lines).toList.take 2000)

def uniqueViolation : Error := .invalid "A record with the same unique value already exists." []

namespace Pipeline
variable (c : Pipeline)

/-- The records as the session has them, and as the last flush has left the table. -/
structure Batch where
  stored : Records
  view : Records

/-- One `UPDATE` for each of these rows; the table has to be in order behind each. -/
def updatesHold (stored : Records) : List (ℕ × RecordRow) → Bool
  | [] => true
  | r :: rows => c.constraint (stored.modify r.1 fun _ => r.2) && updatesHold (stored.modify r.1 fun _ => r.2) rows

def flushes (stored view : Records) : Bool := c.updatesHold stored view.rows && c.constraint view

/-- One row of the batch: `create_reference` flushes, `update_reference` does not. -/
def applyItem (batch : Batch) : Item → Result Batch
  | .create data =>
    match c.revise true batch.view blank data with
    | .ok row =>
      if c.flushes batch.stored (batch.view.insert row) then .ok ⟨batch.view.insert row, batch.view.insert row⟩
      else .error uniqueViolation
    | .error e => .error e
  | .update data _ =>
    match c.matchExisting batch.view data with
    | some (id, row) =>
      match c.revise false batch.view row (c.updates data) with
      | .ok revised => .ok { batch with view := batch.view.modify id fun _ => revised }
      | .error e => .error e
    | none => .error (.invalid "The record to update was removed since the preview." [])
  | .skip _ | .error _ => .ok batch

def applyItems : Batch → List Item → Result Batch
  | batch, [] => .ok batch
  | batch, item :: items =>
    match c.applyItem batch item with
    | .ok next => applyItems next items
    | .error e => .error e

/-- The records and the job that a confirmation leaves, behind the claim. -/
def confirmBatch (readings : Readings) (session : ImportSession) (records : Records) : List Item × Records × Option ImportJob :=
  if session.mode = .validateOnly then ([], records, none)
  else
    match c.validateRows readings session.mode [] records session.rows with
    | .error e => ([], records, some (failedJob session (errorMessage e)))
    | .ok preview =>
      if preview.any Item.isError then
        (preview, records, some (recordJob session .failed preview (some (errorText session preview))))
      else
        match c.applyItems ⟨records, records⟩ preview with
        | .error e => (preview, records, if isValidation e then none else some (failedJob session (errorMessage e)))
        | .ok batch =>
          -- what is left is flushed by the commit
          if c.flushes batch.stored batch.view then (preview, batch.view, some (recordJob session .completed preview none))
          else (preview, records, some (failedJob session "UNIQUE constraint failed"))

end Pipeline

/-! ## The calls -/

/-- `import_sessions`; the token is unique. -/
structure Sessions where
  rows : List ImportSession
  unique : (rows.map ImportSession.token).Nodup

namespace Sessions

/-- The row of a token that the user may still use. -/
def usable? (s : Sessions) (token : String) (userId now : ℕ) : Option ImportSession :=
  s.rows.find? fun r => r.token == token && r.userId == userId && decide (now < r.expiresAt)

/-- `DELETE FROM import_sessions WHERE token = …`. -/
def remove (s : Sessions) (token : String) : Sessions where
  rows := s.rows.filter fun r => r.token != token
  unique := s.unique.sublist (List.filter_sublist.map _)

end Sessions

inductive Call
  /-- At `claim_session`. -/
  | claims (token : String) (userId : ℕ)
  /-- Behind the claim. -/
  | confirms (session : ImportSession)
  /-- At `get_session_state`. -/
  | looks (token : String) (userId : ℕ)
  /-- At the `DELETE` of a cancel. -/
  | deletes (token : String)

structure Confirmation where
  mode : ImportMode
  preview : List Item
  before : Records
  after : Records
  job : Option ImportJob

structure ImportSystem where
  sessions : Sessions
  records : Records
  jobs : List ImportJob := []
  calls : Table Call := .empty
  /-- The tokens that were claimed. -/
  claimed : List String := []
  log : List Confirmation := []

inductive ImportAction
  | confirm (token : String) (userId : ℕ)
  | cancel (token : String) (userId : ℕ)
  | advance (call now : ℕ)
  /-- Other writers. -/
  | write (records : Records)

namespace ImportSystem

def leave (s : ImportSystem) (call : ℕ) : ImportSystem := { s with calls := s.calls.erase fun i _ => i == call }

def goTo (s : ImportSystem) (call : ℕ) (stage : Call) : ImportSystem := { s with calls := s.calls.modify call fun _ => stage }

def advance (c : Pipeline) (readings : Readings) (s : ImportSystem) (call now : ℕ) : Call → ImportSystem
  | .claims token userId =>
    match s.sessions.usable? token userId now with
    | some session =>
      { s.goTo call (.confirms session) with sessions := s.sessions.remove token, claimed := s.claimed ++ [token] }
    | none => s.leave call
  | .confirms session =>
    let result := c.confirmBatch readings session s.records
    { s.leave call with
      records := result.2.1
      jobs := s.jobs ++ result.2.2.toList
      log := s.log ++ [⟨session.mode, result.1, s.records, result.2.1, result.2.2⟩] }
  | .looks token userId =>
    match s.sessions.usable? token userId now with
    | some _ => s.goTo call (.deletes token)
    | none => s.leave call
  | .deletes token => { s.leave call with sessions := s.sessions.remove token }

def step (c : Pipeline) (readings : Readings) (s : ImportSystem) : ImportAction → ImportSystem
  | .confirm token userId => { s with calls := s.calls.insert (.claims token userId) }
  | .cancel token userId => { s with calls := s.calls.insert (.looks token userId) }
  | .advance call now =>
    match s.calls.get? call with
    | some stage => s.advance c readings call now stage
    | none => s
  | .write records => { s with records := records }

end ImportSystem

/-! ## What is promised -/

/-- The data of the `CREATE` rows. -/
def createData (preview : List Item) : List Data := preview.filterMap fun item =>
  match item with
  | .create data => some data
  | _ => none

/-- Every row of the preview is applied: the `CREATE` rows made the new records, one each, the `UPDATE` rows revised the
records that they name, and no other record has changed. -/
structure AllApplied (c : Pipeline) (e : Confirmation) (created : List ℕ) : Prop where
  distinct : created.Nodup
  fresh : ∀ id, id ∈ created ↔ e.before.get? id = none ∧ (e.after.get? id).isSome = true
  made : List.Forall₂ (fun data id => ∃ records row, c.revise true records Pipeline.blank data = .ok row ∧
    e.after.get? id = some row) (createData e.preview) created
  revised : ∀ data id, Item.update data id ∈ e.preview → ∃ records old row, e.before.get? id = some old ∧
    c.revise false records old (c.updates data) = .ok row ∧ e.after.get? id = some row
  kept : ∀ id row, e.before.get? id = some row → id ∉ e.preview.filterMap Item.updateId? → e.after.get? id = some row

/-- A confirmation applies every row, with one completed job that counts the records created, updated and skipped, or none;
creating only, it changes no record. -/
structure Faithful (c : Pipeline) (e : Confirmation) : Prop where
  atomic : ∀ job, e.job = some job → job.status = .completed → ∃ created, AllApplied c e created ∧
    job.created = created.length ∧ job.updated = (e.preview.filterMap Item.updateId?).dedup.length ∧
    job.skipped = (e.preview.filterMap Item.skipId?).dedup.length
  nothing : (∀ job, e.job = some job → job.status ≠ .completed) → e.after = e.before
  createOnly : e.mode = .createOnly → ∀ id row, e.before.get? id = some row → e.after.get? id = some row

namespace Pipeline
variable (c : Pipeline)

/-- The identifier of a row that can be read. -/
def identityOf (readings : Readings) (row : ParsedRow) : String :=
  match rowData readings c.module row with
  | .ok data => c.module.identifier readings data
  | .error _ => ""

/-- The record that a row names. -/
def namedId (readings : Readings) (records : Records) (row : ParsedRow) : Option ℕ :=
  match rowData readings c.module row with
  | .ok data => (c.matchExisting records data).map Prod.fst
  | .error _ => none

/-- No two rows without an identifier name the same record. -/
def NamesApart (readings : Readings) (records : Records) (rows : List ParsedRow) : Prop :=
  rows.Pairwise fun a b => c.identityOf readings a = "" → c.namedId readings records a = c.namedId readings records b →
    c.namedId readings records a = none

end Pipeline

namespace ImportSystem

/-- Every token is claimed at most once, and every confirmation is faithful. -/
def Sound (c : Pipeline) (s : ImportSystem) : Prop :=
  (∀ token, s.claimed.count token ≤ 1) ∧ ∀ e ∈ s.log, Faithful c e

/-- The session whose batch a call is at. -/
def batchOf : Option Call → Option ImportSession
  | some (.confirms session) => some session
  | _ => none

/-- A batch has no two rows without an identifier that name the same record. -/
def Apart (c : Pipeline) (readings : Readings) (s : ImportSystem) : ImportAction → Prop
  | .advance call _ => ∀ session ∈ batchOf (s.calls.get? call), c.NamesApart readings s.records session.rows
  | _ => True

instance (c : Pipeline) (readings : Readings) (records : Records) (rows : List ParsedRow) :
    Decidable (c.NamesApart readings records rows) :=
  inferInstanceAs (Decidable (rows.Pairwise _))

instance (c : Pipeline) (readings : Readings) (s : ImportSystem) : ∀ a, Decidable (s.Apart c readings a)
  | .advance _ _ => inferInstanceAs (Decidable (∀ session ∈ _, _))
  | .confirm _ _ | .cancel _ _ | .write _ => .isTrue trivial

end ImportSystem
end LcsSystem.ExcelIo
