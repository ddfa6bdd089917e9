import LcsSystem.Quotations.RevisionChildren

/-!
# Quotations and their revisions

`src/backend/app/modules/quotations/service.py:484-876`: a save writes the latest revision, or a copy of it
once that one has left DRAFT; the other requests move one revision through its statuses and mirror it on the
header of the quotation.

The placeholder codes of new parties and the locks of `_clone_revision` are left out.
-/

namespace LcsSystem
open Calendar Relational Checks

/-! ## Header -/

/-- `STATUS_MAP`. -/
def statusMap : List (String × String) :=
  [("draft", "DRAFT"), ("submitted", "SUBMITTED"), ("sent", "SENT"), ("accepted", "ACCEPTED"),
    ("converted", "CONVERTED"), ("rejected", "REJECTED"), ("superseded", "SUPERSEDED"), ("expired", "EXPIRED"),
    ("cancelled", "CANCELLED")]

def normalizeStatus (value : Option String) (default : String) : String :=
  match value with
  | none => default
  | some text =>
    match statusMap.lookup (lower (strip text)) with
    | some status => status
    | none => if upper (strip text) = "" then default else upper (strip text)

/-- `QUOTATION_WRITE_SCHEMA`; no field of it is required. -/
def quotationWriteSchema (p : QuotationPayload) : List FieldErrorItem :=
  TextSpec.check { key := "quotationNo", maxLength := some 50 } p.quotationNo ++
  Reference.check "customerPartyId" none p.customerPartyId ++
  TextSpec.check { key := "customer", maxLength := some 255 } p.customer ++
  TextSpec.check { key := "direction", maxLength := some 64 } p.direction ++
  TextSpec.check { key := "status", maxLength := some 20 } p.status ++
  checkDate "date" p.date ++
  checkDate "quotationDate" p.quotationDate ++
  checkDate "validUntil" p.validUntil ++
  TextSpec.check { key := "currency", minLength := some 3, maxLength := some 3 } p.currency ++
  TextSpec.check { key := "description", maxLength := some 10000 } p.description ++
  TextSpec.check { key := "notes", maxLength := some 10000 } p.notes ++
  DecimalSpec.check { key := "amount" } p.amount ++
  DecimalSpec.check { key := "totalSelling" } p.totalSelling ++
  DecimalSpec.check { key := "totalAmount" } p.totalAmount ++
  DecimalSpec.check { key := "total" } p.total

def resolvePartyById (db : QuotationDb) (reference : Reference) : Result ℕ := do
  let id ← require reference.number (.invalid "The selected company is invalid."
    [("customerPartyId", "Must be a company id.")])
  let party ← require ((db.parties.get? id).filter fun p => !p.deleted) (.invalid "The selected company does not exist."
    [("customerPartyId", "Unknown company.")])
  check (party.active = true) (.invalid "The selected company is not active." [("customerPartyId", "Inactive company.")])
  return id

/-- A party of this name, or any party where no name is given; an unknown name becomes a new party. -/
def resolvePartyByName (db : QuotationDb) (name : Option String) : QuotationDb × ℕ :=
  match db.parties.rows.find? fun r => (name.all fun n => r.2.legalName == n) && !r.2.deleted with
  | some r => (db, r.1)
  | none =>
    ({ db with parties := db.parties.insert ⟨name.getD "Unnamed Party", true, false⟩ }, db.parties.nextId)

/-- A direction that is named must exist; otherwise the first one is taken. -/
def resolveDirection (db : QuotationDb) : Option String → Result (QuotationDb × ℕ)
  | some name => do
    let found ← require
      (db.directions.rows.find? fun r => (r.2.name == name || r.2.code == upper name) && !r.2.deleted)
      (.invalid "The selected trade direction does not exist." [("direction", "Unknown trade direction.")])
    return (db, found.1)
  | none =>
    match db.directions.rows.find? fun r => !r.2.deleted with
    | some r => .ok (db, r.1)
    | none => .ok
      ({ db with directions := db.directions.insert ⟨"GENERAL", "General", false⟩ }, db.directions.nextId)

/-- The party of a body: by id, else by name. -/
def customerOf (db : QuotationDb) (reference : Option Reference) (name : Option String) : Result (QuotationDb × ℕ) :=
  match reference with
  | some reference => do
    let id ← resolvePartyById db reference
    return (db, id)
  | none => .ok (resolvePartyByName db name)

/-- The stored quotation that a body names. -/
def storedQuotation (db : QuotationDb) (p : QuotationPayload) : Option (ℕ × Quotation) :=
  let key := match p.id with
    | .absent | .blank => p.quotationId.get?
    | .malformed => none
    | .value id => some id
  key.bind fun id => (db.quotations.get? id).map fun q => (id, q)

def createQuotation (env : Env) (db : QuotationDb) (p : QuotationPayload) : Result (QuotationDb × ℕ) := do
  check ((p.date.get?.or p.quotationDate.get?).isSome) (.invalid "A quotation date is required." [("date", "Required")])
  check (p.customerPartyId.reference?.isSome ∨ p.customer.text.get?.isSome) (.invalid "A business party is required."
    [("customerPartyId", "Required")])
  check p.direction.text.get?.isSome (.invalid "A trade direction is required." [("direction", "Required")])
  let (db, partyId) ← customerOf db p.customerPartyId.reference? p.customer.text.get?
  let (db, directionId) ← resolveDirection db p.direction.text.get?
  let (sequences, number) := match p.quotationNo.text.get? with
    | some number => (db.sequences, number)
    | none => allocateNumber env db.sequences "QUOTATION"
  check (∀ q ∈ db.quotations.values, q.quotationNo ≠ number)
    (.database "duplicate key value violates unique constraint uq_quotations_no")
  let quotation : Quotation := {
    quotationNo := number
    customerPartyId := partyId
    tradeDirectionId := directionId
    currentRevisionNo := 1
    status := normalizeStatus p.status.text.get? "DRAFT"
    data := ⟨none, none, none⟩ }
  return ({ db with sequences := sequences, quotations := db.quotations.insert quotation }, db.quotations.nextId)

/-- Party and direction are reassigned only where the body has their keys. -/
def reassignedParty (db : QuotationDb) (p : QuotationPayload) (quotation : Quotation) : Result (QuotationDb × ℕ) :=
  if p.customerPartyId.reference?.isSome ∨ p.customer.sent = true then
    customerOf db p.customerPartyId.reference? p.customer.text.get?
  else .ok (db, quotation.customerPartyId)

def reassignedDirection (db : QuotationDb) (p : QuotationPayload) (quotation : Quotation) : Result (QuotationDb × ℕ) :=
  if p.direction.sent then resolveDirection db p.direction.text.get? else .ok (db, quotation.tradeDirectionId)

def updateQuotation (db : QuotationDb) (p : QuotationPayload) (id : ℕ) (quotation : Quotation) :
    Result (QuotationDb × ℕ) := do
  let (db, partyId) ← reassignedParty db p quotation
  let (db, directionId) ← reassignedDirection db p quotation
  let quotation : Quotation := { quotation with
    customerPartyId := partyId
    tradeDirectionId := directionId
    status := normalizeStatus p.status.text.get? quotation.status }
  return ({ db with quotations := db.quotations.modify id fun _ => quotation }, id)

/-- The quotation of a save: a new one, unless the body names a stored one. -/
def quotationOf (env : Env) (db : QuotationDb) (p : QuotationPayload) : Result (QuotationDb × ℕ) :=
  match storedQuotation db p with
  | some (id, quotation) => updateQuotation db p id quotation
  | none => createQuotation env db p

/-! ## Revisions -/

def nextRevisionNo (db : QuotationDb) (quotationId : ℕ) : ℕ :=
  ((db.revisionsOf quotationId).map fun r => r.2.revisionNo).foldl max 0 + 1

/-- `_clone_revision`: a draft with the next number and a copy of every child. -/
def cloneRevision (db : QuotationDb) (quotationId : ℕ) (source : ℕ × QuotationRevision) (userId : Option ℕ) :
    QuotationDb × ℕ :=
  let cloneId := db.revisions.nextId
  ({ db with
    revisions := db.revisions.insert { source.2 with
      quotationId := quotationId
      revisionNo := nextRevisionNo db quotationId
      status := .draft
      createdByUserId := userId.or source.2.createdByUserId }
    containers := db.containers.insertAll
      ((db.containersOf source.1).map fun c => { c.2 with quotationRevisionId := cloneId })
    places := db.places.insertAll
      (((db.placesOf source.1).insertionSort placeOrder).map fun p => { p.2 with parentId := cloneId, actualAt := none })
    lines := db.lines.insertAll
      ((db.linesOf source.1).map fun l => { l.2 with quotationRevisionId := cloneId }) }, cloneId)

/-- The first revision of a quotation. -/
def firstRevision (env : Env) (db : QuotationDb) (quotationId : ℕ) (quotationDate : Date) (validUntil : Option Date)
    (currency : Option String) : QuotationRevision where
  quotationId := quotationId
  revisionNo := 1
  status := .draft
  quotationDate := quotationDate
  validUntil := validUntil
  currencyCode := currency.getD db.defaultCurrency
  description := none
  notes := none
  amounts := 0
  createdByUserId := env.userId

def modifyQuotation (db : QuotationDb) (id : ℕ) (f : Quotation → Quotation) : QuotationDb :=
  { db with quotations := db.quotations.modify id f }

/-- The revision that a save writes: the latest one, or a copy of it once that one has left DRAFT. -/
def editableRevision (env : Env) (db : QuotationDb) (p : QuotationPayload) (quotationId : ℕ) : QuotationDb × ℕ :=
  match latestRevision db quotationId with
  | none =>
    let revision := firstRevision env db quotationId (p.date.get?.getD env.today) p.validUntil.get? p.currency.text.get?
    ({ db with revisions := db.revisions.insert revision }, db.revisions.nextId)
  | some latest =>
    if latest.2.status.isImmutable then
      let (cloned, cloneId) := cloneRevision db quotationId latest env.userId
      (modifyQuotation cloned quotationId fun q => { q with
        currentRevisionNo := nextRevisionNo db quotationId
        status := if p.status.sent then q.status else "DRAFT" }, cloneId)
    else (db, latest.1)

/-- A value that is not sent keeps the stored one. -/
def QuotationRevision.withHeader (r : QuotationRevision) (p : QuotationPayload) : QuotationRevision :=
  { r with
    quotationDate := p.date.get?.getD r.quotationDate
    validUntil := p.validUntil.get?.or r.validUntil
    currencyCode := p.currency.text.get?.getD r.currencyCode
    description := p.description.text.get?.or r.description
    notes := p.notes.text.get?.or r.notes }

def saveRevisionHeader (db : QuotationDb) (revisionId : ℕ) (p : QuotationPayload) : Result QuotationDb := do
  check (∀ r ∈ db.revisions.get? revisionId, ∀ limit ∈ (r.withHeader p).validUntil,
      (r.withHeader p).quotationDate ≤ limit)
    (.invalid "Valid until cannot be earlier than the quotation date."
      [("validUntil", "Cannot be earlier than the quotation date.")])
  return { db with revisions := db.revisions.modify revisionId fun r => r.withHeader p }

/-- A key of the body replaces the one of `data`, also by a blank. -/
def sentOr (f : Field String) (stored : Option String) : Option String := if f.sent then f.get? else stored

def LegacyRoute.merge (data : LegacyRoute) (p : QuotationPayload) : LegacyRoute where
  pickup := sentOr p.pickup data.pickup
  border := sentOr p.border data.border
  delivery := sentOr p.delivery data.delivery

/-- `save_quotation`: the ids of the quotation and of the revision it wrote. -/
def saveQuotation (env : Env) (db : QuotationDb) (p : QuotationPayload) : Result (QuotationDb × ℕ × ℕ) := do
  RecordSchema.validate (quotationWriteSchema p)
  let (headed, quotationId) ← quotationOf env db p
  let (opened, revisionId) := editableRevision env headed p quotationId
  let dated ← saveRevisionHeader opened revisionId p
  let saved ← saveRevisionChildren dated revisionId p
  return (modifyQuotation saved quotationId fun q => { q with data := q.data.merge p }, quotationId, revisionId)

def quotationNotFound : Error := .notFound "Quotation not found."

/-- `create_revision`: a draft beside whatever is open. -/
def createRevision (env : Env) (db : QuotationDb) (quotationId : ℕ) (p : QuotationPayload) :
    Result (QuotationDb × ℕ) := do
  RecordSchema.validate (quotationWriteSchema p)
  let _ ← require (db.quotations.get? quotationId) quotationNotFound
  match latestRevision db quotationId with
  | some latest =>
    let (cloned, cloneId) := cloneRevision db quotationId latest env.userId
    return (modifyQuotation cloned quotationId fun q => { q with
      currentRevisionNo := nextRevisionNo db quotationId
      status := if latest.2.status = .draft then q.status else "DRAFT" }, cloneId)
  | none =>
    let revision := firstRevision env db quotationId env.today none p.currency.text.get?
    let opened : QuotationDb := { db with revisions := db.revisions.insert revision }
    return (modifyQuotation opened quotationId fun q => { q with currentRevisionNo := 1 }, db.revisions.nextId)

/-! ## Statuses -/

/-- `_revision_with_quotation`. -/
def revisionWithQuotation (db : QuotationDb) (revisionId : ℕ) : Result (Quotation × QuotationRevision) := do
  let revision ← require (db.revisions.get? revisionId) (.notFound "Quotation revision not found.")
  let quotation ← require (db.quotations.get? revision.quotationId) quotationNotFound
  return (quotation, revision)

def setRevisionStatus (db : QuotationDb) (revisionId : ℕ) (status : RevisionStatus) : QuotationDb :=
  { db with revisions := db.revisions.modify revisionId fun r => { r with status := status } }

/-- The header mirrors a status. -/
def setQuotationStatus (db : QuotationDb) (quotationId : ℕ) (status : RevisionStatus) : QuotationDb :=
  modifyQuotation db quotationId fun q => { q with status := status.code }

def wrongStatus (verb : String) (status : RevisionStatus) : Error :=
  .invalidState ("Cannot " ++ verb ++ " a revision in status " ++ status.code ++ ".")

/-- From DRAFT to `status`; a revision in one of the statuses `done` is returned as it is. -/
def issueRevision (verb : String) (status : RevisionStatus) (done : List RevisionStatus) (db : QuotationDb)
    (revisionId : ℕ) : Result QuotationDb := do
  let (_, revision) ← revisionWithQuotation db revisionId
  if revision.status ∈ done then return db
  else
    check (revision.status = .draft) (wrongStatus verb revision.status)
    return setQuotationStatus (setRevisionStatus db revisionId status) revision.quotationId status

def sendRevision : QuotationDb → ℕ → Result QuotationDb := issueRevision "send" .sent [.sent]

def submitRevision : QuotationDb → ℕ → Result QuotationDb := issueRevision "submit" .submitted [.submitted, .sent]

/-- `competing_revisions`. -/
def competingRevisions (db : QuotationDb) (quotationId revisionId : ℕ) : List (ℕ × QuotationRevision) :=
  (db.revisionsOf quotationId).filter fun r => r.1 ≠ revisionId ∧ r.2.status ∈ [.sent, .accepted, .submitted]

def acceptRevision (db : QuotationDb) (revisionId : ℕ) : Result QuotationDb := do
  let (_, revision) ← revisionWithQuotation db revisionId
  if revision.status = .accepted then return db
  else
    check (revision.status = .sent) (.invalidState "Only a sent revision can be accepted.")
    let accepted := setQuotationStatus (setRevisionStatus db revisionId .accepted) revision.quotationId .accepted
    return (competingRevisions db revision.quotationId revisionId).foldl
      (fun db other => setRevisionStatus db other.1 .superseded) accepted

/-- To `status` from a revision that is not decided. The header follows where this is the current revision
and no other one is live. -/
def withdrawRevision (verb : String) (status : RevisionStatus) (db : QuotationDb) (revisionId : ℕ) :
    Result QuotationDb := do
  let (quotation, revision) ← revisionWithQuotation db revisionId
  if revision.status = status then return db
  else
    check (revision.status ∈ [.draft, .sent, .submitted]) (wrongStatus verb revision.status)
    let withdrawn := setRevisionStatus db revisionId status
    if quotation.currentRevisionNo = revision.revisionNo ∧
        ∀ other ∈ db.revisionsOf revision.quotationId, other.1 ≠ revisionId → other.2.status.isLive = false then
      return setQuotationStatus withdrawn revision.quotationId status
    else return withdrawn

def rejectRevision : QuotationDb → ℕ → Result QuotationDb := withdrawRevision "reject" .rejected

def cancelRevision : QuotationDb → ℕ → Result QuotationDb := withdrawRevision "cancel" .cancelled

end LcsSystem
